import PaymentConnector.BreakerHistory
import PaymentConnector.MetricsExport
import PaymentConnector.RefreshBackoff

/-!
# The alert on failing loads

`CredentialRotationFailed` is raised when `credential_fetch_errors_total` grows by more than
three in ten minutes.  A failed load counts one, and after each of them `_refresh_loop` doubles
its sleep, up to five minutes.  Once it sleeps that long, ten minutes have room for two loads,
so in a long outage the alert is off again while Vault is still down.

Prometheus sees the counter at its scrapes only and scales what lies between the first and the
last scrape of the ten minutes up to all of them; the factor is a parameter here.

## Main results

* `PacedService.run_rests` — loads keep to the sleeps between them.
* `PacedService.grows_at_most_two` — ten minutes of loads after capped sleeps.
* `PacedService.outage_silent` — the alert in an outage.
-/

namespace PaymentConnector

open Library Library.Machine

/-- The expression of `CredentialRotationFailed`, on the counter at the first and at the last
scrape of its window. -/
def credentialRotationFailedAlert (scale : Rat) (first last : Nat) : Bool :=
  3 < scale * ((last - first : Nat) : Rat)

/-! ## Loads and the sleeps before them -/

/-- A load: the seconds slept before it, unless it is the one at the start-up, and when it
ended. -/
structure LoadRecord where
  slept : Option Int
  endedAt : Rat
  failed : Bool

/-- A load, and a later one: the sleep before the later one lies between them. -/
def LoadRecord.Rests (r r' : LoadRecord) : Prop :=
  r.endedAt ≤ r'.endedAt ∧ ∀ seconds, r'.slept = some seconds → r.endedAt + seconds ≤ r'.endedAt

/-- The service, with the instant at which its refresh loop went to sleep. -/
structure PacedService where
  service : Service
  asleepSince : Option Rat

/-- Whether a load among these observations returned `False`. -/
def loadFailed (obs : List ServiceObs) : Bool :=
  (obs.filterMap ServiceObs.process?).any Obs.loadFailed

/-- `credential_fetch_errors_total`, as `/metrics` exports it. -/
def Service.fetchErrors (s : Service) : Nat :=
  (s.process.connector.counters?.map Counters.credentialFetchErrors).getD 0

namespace PacedService

def start (settings : Settings) (now : Rat) : PacedService := ⟨.start settings now, none⟩

/-- The seconds that the loop sleeps for. -/
def delay? (s : PacedService) : Option Int :=
  s.service.consecutiveErrors.map fun errors =>
    (RefreshLoop.mk s.service.process.connector.settings.credentialCheckInterval errors).delay

/-- Whether its sleep can be over, which is never shorter than asked for. -/
def awake (s : PacedService) (now : Rat) : Bool :=
  s.asleepSince.all fun since =>
    since ≤ now && s.delay?.all fun (seconds : Int) => since + (seconds : Rat) ≤ now

/-- A step of the service at an instant; loads wait for the end of the sleep. -/
def step (s : PacedService) : Rat × ServiceEvent → Option (PacedService × List LoadRecord)
  | (now, e) =>
      match s.service.step e with
      | none => none
      | some (service, obs) =>
          if e.isLoad then
            if s.awake now then
              some (⟨service, some now⟩, [⟨s.delay?, now, loadFailed obs⟩])
            else none
          else some ({ s with service := service }, [])

end PacedService

/-! ## What a step counts -/

/-- A load of the process fails once or not at all. -/
private theorem countP_loadFailed_load {p p' : Process} {read : VaultRead} {t : LoadReadings}
    {obs : List Obs} (h : p.step (.load read t) = some (p', obs)) :
    obs.countP Obs.loadFailed = (obs.any Obs.loadFailed).toNat := by
  cases step_spec h with
  | load read t manager manager' result outputs =>
      have hcount : (outputs.map Obs.output).countP Obs.loadFailed = 0 := by
        rw [List.countP_map]
        exact List.countP_eq_zero.mpr fun _ _ => Bool.false_ne_true
      have hany : (outputs.map Obs.output).any Obs.loadFailed = false := by
        rw [List.any_map]
        exact List.any_eq_false.mpr fun _ _ => Bool.false_ne_true
      rw [List.countP_append, List.any_append, hcount, hany]
      cases result <;> rfl

/-- The handlers load nothing. -/
private theorem countP_loadFailed_handler {p p' : Process} {e : Event} {obs : List Obs}
    (h : p.step e = some (p', obs)) (hother : ∀ read t, e ≠ .load read t) :
    obs.countP Obs.loadFailed = 0 := by
  refine List.countP_eq_zero.mpr fun x hx hfailed => ?_
  cases x with
  | loaded result =>
      cases step_spec h with
      | load read t => exact hother read t rfl
      | refused => simp at hx
      | raised => simp at hx
      | replayed => simp at hx
      | posting => simp at hx
      | stored => simp [storedObs] at hx
      | fallback => simp at hx
      | failed handler outcome uuid t client inFlight outputs reply hmem haccepted hreply =>
          rcases hreply with ⟨-, detail, rfl⟩ | ⟨-, exc, rfl⟩
          · simp at hx
          · simp at hx
  | _ => cases hfailed

/-- No step changes the settings. -/
private theorem step_keeps_settings {p p' : Process} {e : Event} {obs : List Obs}
    (h : p.step e = some (p', obs)) : p'.connector.settings = p.connector.settings := by
  cases step_spec h <;> rfl

namespace Service

variable {s s' : Service} {e : ServiceEvent} {obs : List ServiceObs}

/-- A load counts one error or none, and the loop takes it into account. -/
theorem load_counts {env : Nat → VaultAttempt} {t : LoadReadings}
    (h : s.step (.load env t) = some (s', obs)) :
    (obs.filterMap ServiceObs.process?).countP Obs.loadFailed = (loadFailed obs).toNat ∧
      ∀ errors, s.consecutiveErrors = some errors →
        s'.consecutiveErrors = some (if loadFailed obs then errors + 1 else 0) := by
  cases step_cases h with
  | loaded env t read process obs hread hload =>
      have hshown : ((s.vaultClient.readSecret s.process.connector.settings none env).2.2.map
          ServiceObs.output ++ obs.map ServiceObs.process ++
            refreshSleep s.process.connector.settings (s.errorsAfter obs)).filterMap
              ServiceObs.process? = obs := by
        rw [List.filterMap_append, List.filterMap_append, process?_of_outputs,
          process?_of_process, process?_of_refreshSleep, List.nil_append, List.append_nil]
      rw [loadFailed, hshown]
      refine ⟨countP_loadFailed_load hload, ?_⟩
      intro errors herrors
      show some (s.errorsAfter obs) = _
      rw [errorsAfter, herrors]

/-- Any other step leaves them alone. -/
theorem other_counts (h : s.step e = some (s', obs)) (hother : e.isLoad = false) :
    (obs.filterMap ServiceObs.process?).countP Obs.loadFailed = 0 ∧
      s'.consecutiveErrors = s.consecutiveErrors := by
  have houtputs : ∀ outputs : List Output,
      ((outputs.map ServiceObs.output).filterMap ServiceObs.process?).countP Obs.loadFailed
        = 0 := by
    intro outputs
    rw [process?_of_outputs]
    rfl
  cases step_cases h with
  | loaded => cases hother
  | received => exact ⟨rfl, rfl⟩
  | answeredAtOnce => exact ⟨rfl, rfl⟩
  | admitted => exact ⟨houtputs _, rfl⟩
  | limited => exact ⟨houtputs _, rfl⟩
  | probing => exact ⟨houtputs _, rfl⟩
  | probed => exact ⟨houtputs _, rfl⟩
  | authorizing rid vault t call payment process obs hcall hstage hroute hstep =>
      rw [process?_of_process]
      exact ⟨countP_loadFailed_handler hstep (fun _ _ h => by cases h), rfl⟩
  | resumed rid outcome uuid t process obs hstep =>
      rw [process?_of_process]
      exact ⟨countP_loadFailed_handler hstep (fun _ _ h => by cases h), rfl⟩
  | responded rid now call answer hcall =>
      refine ⟨?_, rfl⟩
      have hnone : (respond call answer now).filterMap ServiceObs.process? = [] := by
        unfold respond
        split
        · rw [List.filterMap_append, process?_of_outputs]
          rfl
        · rfl
      rw [hnone]
      rfl

/-- The exported counter is the count of the loads that failed. -/
theorem run_fetchErrors {settings : Settings} {now : Rat} {es : List ServiceEvent}
    {tr : List ServiceObs} (hrun : run step (start settings now) es = some (s, tr)) :
    s.fetchErrors = (tr.filterMap ServiceObs.process?).countP Obs.loadFailed := by
  obtain ⟨es', hprocess⟩ := run_process hrun
  rw [fetchErrors, Process.run_counters hprocess]
  rfl

end Service

/-! ## Paced runs -/

namespace PacedService

variable {s s' : PacedService} {now : Rat} {e : ServiceEvent} {records : List LoadRecord}

/-- What a step is of the service, and what it records. -/
inductive PacedStep (s : PacedService) : Rat × ServiceEvent → PacedService → List LoadRecord → Prop
  | load (now : Rat) (env : Nat → VaultAttempt) (t : LoadReadings) (service : Service)
      (obs : List ServiceObs) (hstep : s.service.step (.load env t) = some (service, obs))
      (hawake : s.awake now = true) :
      PacedStep s (now, .load env t) ⟨service, some now⟩ [⟨s.delay?, now, loadFailed obs⟩]
  | other (now : Rat) (e : ServiceEvent) (service : Service) (obs : List ServiceObs)
      (hstep : s.service.step e = some (service, obs)) (hother : e.isLoad = false) :
      PacedStep s (now, e) { s with service := service } []

theorem step_paced (h : s.step (now, e) = some (s', records)) :
    PacedStep s (now, e) s' records := by
  simp only [step] at h
  split at h
  · cases h
  · rename_i service obs hstep
    split at h
    · rename_i hload
      split at h
      · rename_i hawake
        obtain ⟨rfl, rfl⟩ := Prod.mk.inj (Option.some.inj h)
        cases e with
        | load env t => exact .load now env t service obs hstep hawake
        | _ => cases hload
      · cases h
    · rename_i hother
      obtain ⟨rfl, rfl⟩ := Prod.mk.inj (Option.some.inj h)
      exact .other now e service obs hstep (by simpa using hother)

/-- A paced run is one of the service, and its records count the same errors. -/
theorem run_service {es : List (Rat × ServiceEvent)} :
    ∀ {s : PacedService} {tr : List LoadRecord}, run step s es = some (s', tr) →
      ∃ obs, Machine.run Service.step s.service (es.map Prod.snd) = some (s'.service, obs) ∧
        (obs.filterMap ServiceObs.process?).countP Obs.loadFailed
          = tr.countP LoadRecord.failed := by
  induction es with
  | nil =>
      intro s tr hrun
      obtain ⟨rfl, rfl⟩ := run_nil_iff.mp hrun
      exact ⟨[], rfl, rfl⟩
  | cons e es ih =>
      intro s tr hrun
      obtain ⟨s₁, o₁, tr₁, hs, hr, rfl⟩ := run_cons_iff.mp hrun
      obtain ⟨obs, hrest, hcount⟩ := ih hr
      obtain ⟨now, e⟩ := e
      cases step_paced hs with
      | load now env t service shown hstep =>
          refine ⟨shown ++ obs, run_cons_iff.mpr ⟨_, _, _, hstep, hrest, rfl⟩, ?_⟩
          rw [List.filterMap_append, List.countP_append, hcount, (Service.load_counts hstep).1,
            List.countP_append]
          cases loadFailed shown <;> simp
      | other now e service shown hstep hother =>
          refine ⟨shown ++ obs, run_cons_iff.mpr ⟨_, _, _, hstep, hrest, rfl⟩, ?_⟩
          rw [List.filterMap_append, List.countP_append, hcount,
            (Service.other_counts hstep hother).1, List.nil_append, Nat.zero_add]

/-! ### The sleeps between loads -/

/-- The loads so far rest, and the loop has been asleep since the last of them. -/
structure Rested (s : PacedService) (tr : List LoadRecord) : Prop where
  rests : tr.Pairwise LoadRecord.Rests
  since : ∀ r ∈ tr, ∃ since, s.asleepSince = some since ∧ r.endedAt ≤ since

theorem awake_spec {since : Rat} (h : s.awake now = true) (hsince : s.asleepSince = some since) :
    since ≤ now ∧ ∀ seconds, s.delay? = some seconds → since + seconds ≤ now := by
  rw [awake, hsince, Option.all_some, Bool.and_eq_true, decide_eq_true_eq] at h
  refine ⟨h.1, fun seconds hseconds => ?_⟩
  have hover := h.2
  rw [hseconds, Option.all_some, decide_eq_true_eq] at hover
  exact hover

theorem step_rested {tr : List LoadRecord} (h : Rested s tr)
    (hstep : s.step (now, e) = some (s', records)) : Rested s' (tr ++ records) := by
  cases step_paced hstep with
  | load now env t service obs hload hawake =>
      have hbefore : ∀ r ∈ tr, r.Rests ⟨s.delay?, now, loadFailed obs⟩ := by
        intro r hr
        obtain ⟨since, hsince, hle⟩ := h.since r hr
        obtain ⟨hnow, hdelay⟩ := awake_spec hawake hsince
        refine ⟨le_trans hle hnow, fun seconds hseconds => ?_⟩
        have hover := hdelay seconds hseconds
        show r.endedAt + seconds ≤ now
        linarith
      refine ⟨?_, ?_⟩
      · refine List.pairwise_append.mpr ⟨h.rests, List.pairwise_singleton _ _, ?_⟩
        intro r hr r' hr'
        rw [List.mem_singleton.mp hr']
        exact hbefore r hr
      · intro r hr
        refine ⟨now, rfl, ?_⟩
        rcases List.mem_append.mp hr with hold | hnew
        · exact (hbefore r hold).1
        · rw [List.mem_singleton.mp hnew]
  | other now e service obs =>
      rw [List.append_nil]
      exact ⟨h.rests, h.since⟩

/-- Loads keep to the sleeps between them, from whatever state. -/
theorem run_rests {es : List (Rat × ServiceEvent)} {tr : List LoadRecord}
    (hrun : run step s es = some (s', tr)) : tr.Pairwise LoadRecord.Rests :=
  (run_invariant (I := Rested) (fun _ _ _ _ _ h hs => step_rested h hs)
    ⟨List.Pairwise.nil, fun _ h => by cases h⟩ hrun).rests

/-- Ten minutes have room for two loads after capped sleeps. -/
theorem length_le_two {first : Rat} {tr : List LoadRecord} (hrests : tr.Pairwise LoadRecord.Rests)
    (hwindow : ∀ r ∈ tr, first < r.endedAt ∧ r.endedAt ≤ first + 600)
    (hcapped : ∀ r ∈ tr, r.slept = some maxBackoff) : tr.length ≤ 2 := by
  match tr with
  | [] => exact Nat.zero_le 2
  | [_] => exact Nat.le_succ 1
  | [_, _] => exact le_refl 2
  | r :: r' :: r'' :: rest =>
      -- The sleeps before the second and the third load take ten minutes.
      have hsecond := ((List.pairwise_cons.mp hrests).1 r' (by simp)).2 maxBackoff
        (hcapped r' (by simp))
      have hthird := ((List.pairwise_cons.mp (List.pairwise_cons.mp hrests).2).1 r'' (by simp)).2
        maxBackoff (hcapped r'' (by simp))
      have hlast := (hwindow r'' (by simp)).2
      have hfirst := (hwindow r (by simp)).1
      have hcap : ((maxBackoff : Int) : Rat) = 300 := by norm_num [maxBackoff]
      rw [hcap] at hsecond hthird
      linarith

/-! ### An outage -/

/-- Where the doubled sleep reaches the cap it stays there. -/
theorem delay_capped {checkInterval : Int} {n k : Nat} (hn : 0 < n)
    (hcap : maxBackoff ≤ checkInterval * 2 ^ n) (hle : n ≤ k) :
    (RefreshLoop.mk checkInterval k).delay = maxBackoff := by
  have hpos : 0 ≤ checkInterval := by
    by_contra hneg
    have hbelow : checkInterval * 2 ^ n < 0 :=
      mul_neg_of_neg_of_pos (not_le.mp hneg) (by positivity)
    rw [maxBackoff] at hcap
    omega
  have hgrown : checkInterval * 2 ^ n ≤ checkInterval * 2 ^ k :=
    mul_le_mul_of_nonneg_left (pow_le_pow_right₀ (by decide) hle) hpos
  have herrors : 0 < k := by omega
  rw [RefreshLoop.delay, if_pos herrors]
  exact min_eq_right (le_trans hcap hgrown)

/-- The loop after at least `n` errors in a row, and the loads since then, each of which came
after a sleep of the full length or did not fail. -/
structure Backed (checkInterval : Int) (n : Nat) (s : PacedService) (tr : List LoadRecord) :
    Prop where
  interval_eq : s.service.process.connector.settings.credentialCheckInterval = checkInterval
  errors : (∀ r ∈ tr, r.failed = true) → ∃ k, n ≤ k ∧ s.service.consecutiveErrors = some k
  capped : (∀ r ∈ tr, r.failed = true) → ∀ r ∈ tr, r.slept = some maxBackoff

theorem step_backed {checkInterval : Int} {n : Nat} (hn : 0 < n)
    (hcap : maxBackoff ≤ checkInterval * 2 ^ n) {tr : List LoadRecord}
    (h : Backed checkInterval n s tr) (hstep : s.step (now, e) = some (s', records)) :
    Backed checkInterval n s' (tr ++ records) := by
  have hsettings : ∀ {e : ServiceEvent} {service : Service} {obs : List ServiceObs},
      s.service.step e = some (service, obs) →
        service.process.connector.settings = s.service.process.connector.settings := by
    intro e service obs hservice
    rcases Service.step_process hservice with ⟨hkept, -⟩ | ⟨e', hprocess⟩
    · rw [hkept]
    · exact step_keeps_settings hprocess
  cases step_paced hstep with
  | load now env t service obs hload hawake =>
      refine ⟨by rw [hsettings hload]; exact h.interval_eq, fun hfailed => ?_, fun hfailed => ?_⟩
      · obtain ⟨k, hle, herrors⟩ := h.errors fun r hr => hfailed r (List.mem_append_left _ hr)
        have hlast : loadFailed obs = true :=
          hfailed ⟨s.delay?, now, loadFailed obs⟩ (by simp)
        refine ⟨k + 1, Nat.le_succ_of_le hle, ?_⟩
        have hcounted := (Service.load_counts hload).2 k herrors
        rw [if_pos hlast] at hcounted
        exact hcounted
      · have hbefore : ∀ r ∈ tr, r.failed = true :=
          fun r hr => hfailed r (List.mem_append_left _ hr)
        intro r hr
        rcases List.mem_append.mp hr with hold | hnew
        · exact h.capped hbefore r hold
        · obtain ⟨k, hle, herrors⟩ := h.errors hbefore
          rw [List.mem_singleton.mp hnew]
          show s.delay? = _
          rw [delay?, herrors, Option.map_some, h.interval_eq, delay_capped hn hcap hle]
  | other now e service obs hother hload =>
      rw [List.append_nil]
      refine ⟨by rw [hsettings hother]; exact h.interval_eq, fun hfailed => ?_, h.capped⟩
      rw [(Service.other_counts hother hload).2]
      exact h.errors hfailed

/-- In an outage of Vault the alert does not stay on.  Let the interval, doubled `n` times, reach
the cap of five minutes (`n` is 4 for the default of 30 s), and let the last `n` loads or more
have failed at the first scrape of a window of ten minutes.  As long as the loads go on to fail,
the expression is false on that window, whatever requests come in between. -/
theorem outage_silent (settings : Settings) (started : Rat) (n : Nat) (hn : 0 < n)
    (hcap : maxBackoff ≤ settings.credentialCheckInterval * 2 ^ n)
    (before during : List (Rat × ServiceEvent)) (s s' : PacedService) (tr tr' : List LoadRecord)
    (hbefore : run step (start settings started) before = some (s, tr))
    (herrors : ∃ k, n ≤ k ∧ s.service.consecutiveErrors = some k)
    (hduring : run step s during = some (s', tr')) (hdown : ∀ r ∈ tr', r.failed = true)
    (first : Rat) (hwindow : ∀ r ∈ tr', first < r.endedAt ∧ r.endedAt ≤ first + 600)
    (scale : Rat) (hscale : scale < 3 / 2) :
    credentialRotationFailedAlert scale s.service.fetchErrors s'.service.fetchErrors = false := by
  obtain ⟨obs, hservice, hcount⟩ := run_service hbefore
  obtain ⟨obs', hservice', hcount'⟩ := run_service hduring
  have hinterval : s.service.process.connector.settings = settings := Service.run_settings hservice
  have hbacked : Backed settings.credentialCheckInterval n s' tr' :=
    run_invariant (I := Backed settings.credentialCheckInterval n)
      (fun _ _ _ _ _ h hs => step_backed hn hcap h hs)
      ⟨by rw [hinterval], fun _ => herrors, fun _ _ h => by cases h⟩ hduring
  have hroom := length_le_two (run_rests hduring) hwindow (hbacked.capped hdown)
  -- The counter grows by one for each of the two loads.
  have hgrown : s'.service.fetchErrors - s.service.fetchErrors ≤ 2 := by
    have hboth := run_append_iff.mpr ⟨_, _, _, hservice, hservice', rfl⟩
    rw [Service.run_fetchErrors hservice, Service.run_fetchErrors hboth, List.filterMap_append,
      List.countP_append, hcount']
    have hle : tr'.countP LoadRecord.failed ≤ tr'.length := List.countP_le_length
    omega
  have hnonneg : (0 : Rat) ≤ ((s'.service.fetchErrors - s.service.fetchErrors : Nat) : Rat) :=
    Nat.cast_nonneg _
  have htwo : ((s'.service.fetchErrors - s.service.fetchErrors : Nat) : Rat) ≤ 2 := by
    exact_mod_cast hgrown
  rw [credentialRotationFailedAlert, decide_eq_false_iff_not, not_lt]
  nlinarith

/-- A start-up, and the first four loads of an outage. -/
def outageStart : List (Rat × ServiceEvent) :=
  (1, .load (fun _ => Service.attemptWith "key-v1") (.at 1)) ::
    [31, 91, 211, 451].map fun now => (now, .load (fun _ => Service.unreachable) (.at now))

/-- The next two loads. -/
def outageLater : List (Rat × ServiceEvent) :=
  [751, 1051].map fun now => (now, .load (fun _ => Service.unreachable) (.at now))

/-- With the default interval the alert is on after four failed loads, and off in the window
after them. -/
theorem outage_silent_default :
    ∃ s tr s' tr', run step (start sampleSettings 1) outageStart = some (s, tr) ∧
      credentialRotationFailedAlert 1 0 s.service.fetchErrors = true ∧
      run step s outageLater = some (s', tr') ∧ tr'.map LoadRecord.failed = [true, true] ∧
      credentialRotationFailedAlert (21 / 20) s.service.fetchErrors s'.service.fetchErrors =
        false := by
  obtain ⟨s, tr, hrun, halert, herrors, hlater⟩ : ∃ s tr,
      run step (start sampleSettings 1) outageStart = some (s, tr) ∧
        credentialRotationFailedAlert 1 0 s.service.fetchErrors = true ∧
        s.service.consecutiveErrors = some 4 ∧
        ((run step s outageLater).any fun r => decide (r.2.map LoadRecord.failed = [true, true] ∧
          ∀ record ∈ r.2, record.failed = true ∧ 460 < record.endedAt ∧
            record.endedAt ≤ 460 + 600)) = true := exists_run (by decide +kernel)
  obtain ⟨⟨s', tr'⟩, hduring, hshown⟩ := (Option.any_eq_true _ _).mp hlater
  obtain ⟨hfailed, hrecords⟩ := of_decide_eq_true hshown
  exact ⟨s, tr, s', tr', hrun, halert, hduring, hfailed,
    outage_silent sampleSettings 1 4 (by decide) (by decide) outageStart outageLater s s' tr tr'
      hrun ⟨4, le_refl 4, herrors⟩ hduring (fun r hr => (hrecords r hr).1) 460
      (fun r hr => (hrecords r hr).2) (21 / 20) (by norm_num)⟩

end PacedService

end PaymentConnector
