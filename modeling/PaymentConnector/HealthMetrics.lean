import PaymentConnector.CredentialStore
import PaymentConnector.FailedLoad

/-!
# Published health

A load publishes three things: `last_error` and the gauges for the version and the age
of the current credential.  The version is right as far as it is a float.  A failed load
leaves the age gauge where the last successful load set it, and a load that finds the
current version leaves the error of the load before it in place.

The time of a call is the reading from which a successful load sets the age gauge.

## Main results

* `CredentialManager.healthyAfter_iff` — when one load leaves all three right.
* `CredentialManager.healthPublished_iff` — the exact condition over whole runs, on each
  two loads that follow each other.
-/

namespace PaymentConnector

open Library Library.Machine

namespace CredentialManager

/-! ## What a load publishes -/

section Fields

variable (m : CredentialManager) (now : Rat)

@[simp] theorem updateAgeMetric_lastError :
    (m.updateAgeMetric now).lastError = m.lastError := by
  unfold updateAgeMetric
  split <;> rfl

@[simp] theorem updateAgeMetric_credentialVersion :
    (m.updateAgeMetric now).credentialVersion = m.credentialVersion := by
  unfold updateAgeMetric
  split <;> rfl

/-- The gauge is set to the age of the current credential. -/
theorem updateAgeMetric_credentialAgeSeconds {m : CredentialManager} {c : Credential}
    (h : m.getCurrentCredential = some c) :
    (m.updateAgeMetric now).credentialAgeSeconds = c.ageSeconds now := by
  unfold updateAgeMetric
  rw [h]

end Fields

section Install

variable (path : String) (m : CredentialManager) (credential : Credential) (t : LoadReadings)

/-- The error of a load that installs a credential tells whether it returned `True`. -/
theorem loadInstalled_lastError :
    (m.loadInstalled path credential t).2.1.lastError = none ↔
      (m.loadInstalled path credential t).1 = true := by
  by_cases h : Gaugeable credential.version
  · rw [m.loadInstalled_of_gaugeable path credential t h]
    refine iff_of_true ?_ rfl
    unfold announce
    dsimp only
    split <;> rfl
  · obtain ⟨exc, heq⟩ := m.loadInstalled_of_not_gaugeable path credential t h
    rw [heq]
    exact iff_of_false (fun hnone => by cases hnone) (fun htrue => by cases htrue)

theorem loadInstalled_credentialVersion :
    (m.loadInstalled path credential t).2.1.credentialVersion =
      if Gaugeable credential.version then m.gaugeValue credential.version
      else m.credentialVersion := by
  by_cases h : Gaugeable credential.version
  · rw [m.loadInstalled_of_gaugeable path credential t h, if_pos h]
    unfold announce
    dsimp only
    split <;> exact updateAgeMetric_credentialVersion _ _
  · obtain ⟨exc, heq⟩ := m.loadInstalled_of_not_gaugeable path credential t h
    rw [heq, if_neg h]
    rfl

theorem loadInstalled_credentialAgeSeconds {c : Credential} (h : Gaugeable credential.version)
    (hc : (m.loadInstalled path credential t).2.1.getCurrentCredential = some c) :
    (m.loadInstalled path credential t).2.1.credentialAgeSeconds = c.ageSeconds t.age := by
  obtain ⟨m₁, hage, hcache, hversion⟩ : ∃ m₁ : CredentialManager,
      (m.loadInstalled path credential t).2.1.credentialAgeSeconds =
          (m₁.updateAgeMetric t.age).credentialAgeSeconds ∧
        m₁.cache = (m.loadInstalled path credential t).2.1.cache ∧
          m₁.currentVersion = (m.loadInstalled path credential t).2.1.currentVersion := by
    rw [loadInstalled_cache, loadInstalled_currentVersion,
      m.loadInstalled_of_gaugeable path credential t h]
    unfold announce
    dsimp only
    split <;> exact ⟨_, rfl, rfl, rfl⟩
  rw [hage]
  apply updateAgeMetric_credentialAgeSeconds
  rw [getCurrentCredential_congr hcache hversion]
  exact hc

end Install

/-! ## One load -/

/-- The load finds a complete secret of the current version. -/
def Unchanged (m : CredentialManager) (l : Load) : Prop :=
  ∃ secret pair, l.read = .ok secret ∧ secret.keyPair? = some pair ∧
    secret.version = m.currentVersion

/-- What is published after a load with the given result, at the time `now` of the load,
is what there is. -/
structure Healthy (m : CredentialManager) (result : Bool) (now : Rat) : Prop where
  error : m.lastError = none ↔ result = true
  version : ∀ c, m.getCurrentCredential = some c → c.version = some m.credentialVersion
  age : ∀ c, m.getCurrentCredential = some c → m.credentialAgeSeconds = c.ageSeconds now

/-- What a load leaves published is what there is. -/
def HealthyAfter (path : String) (m : CredentialManager) (l : Load) : Prop :=
  Healthy (afterLoad path m l) (m.loadCredentials path l.read l.readings).1 l.readings.age

/-- A version that the load installs is a float. -/
def InstallsFloat (m : CredentialManager) (l : Load) : Prop :=
  m.Changes l → ∀ secret v, l.read = .ok secret → secret.version = some v → pyFloat v = .ok v

/-- The version gauge is right, and is a float. -/
structure Gauged (m : CredentialManager) : Prop where
  version : ∀ c, m.getCurrentCredential = some c → c.version = some m.credentialVersion
  fits : m.credentialVersion.natAbs < floatBound

theorem init_gauged : init.Gauged where
  version := fun c hc => by cases hc
  fits := by decide +kernel

private theorem loadInstalled_healthy_iff (path : String) {m : CredentialManager}
    {credential : Credential} {t : LoadReadings} {v : Int} (hbounded : m.Bounded)
    (hfits : m.credentialVersion.natAbs < floatBound) (hversion : credential.version = some v) :
    (m.loadInstalled path credential t).2.1.Healthy (m.loadInstalled path credential t).1 t.age ↔
      pyFloat v = .ok v := by
  have hcurrent := loadInstalled_getCurrent_of_version path t hbounded hversion
  have hgauge := m.loadInstalled_credentialVersion path credential t
  rw [pyFloat_ok_iff]
  by_cases h : Gaugeable credential.version
  · have hlt : v.natAbs < floatBound := h v hversion
    have hrounded : m.gaugeValue credential.version = roundToFloat v := by
      rw [hversion]
      rfl
    rw [if_pos h, hrounded] at hgauge
    constructor
    · intro hhealthy
      have hsame := hhealthy.version _ hcurrent
      rw [hgauge, hversion, Option.some.injEq] at hsame
      exact ⟨hlt, hsame.symm⟩
    · rintro ⟨-, hexact⟩
      refine ⟨m.loadInstalled_lastError path credential t, ?_, ?_⟩
      · intro c hc
        rw [hcurrent, Option.some.injEq] at hc
        rw [← hc, hgauge, hexact, hversion]
      · exact fun c hc => m.loadInstalled_credentialAgeSeconds path credential t h hc
  · refine iff_of_false ?_ ?_
    · intro hhealthy
      have hsame := hhealthy.version _ hcurrent
      rw [hgauge, if_neg h, hversion, Option.some.injEq] at hsame
      apply h
      intro v' hv'
      rw [hversion, Option.mem_some_iff] at hv'
      rw [← hv', hsame]
      exact hfits
    · rintro ⟨hlt, -⟩
      apply h
      intro v' hv'
      rw [hversion, Option.mem_some_iff] at hv'
      rw [← hv']
      exact hlt

/-- From a right version gauge, a load leaves right values exactly when it does not fail
over an age gauge of another time, does not find the version unchanged under an error, and
installs only a version that is a float. -/
theorem healthyAfter_iff (path : String) {m : CredentialManager} {l : Load} (hbounded : m.Bounded)
    (hversioned : Load.Versioned l) (hgauged : m.Gauged) :
    HealthyAfter path m l ↔
      (m.Failure l.read → ∀ c, m.getCurrentCredential = some c →
          m.credentialAgeSeconds = c.ageSeconds l.readings.age) ∧
        (m.Unchanged l → m.lastError = none) ∧ m.InstallsFloat l := by
  have hmoves := changes_iff path (m := m) (l := l)
  obtain ⟨read, t⟩ := l
  have hfailure := loadCredentials_eq_false_iff path m read t
  unfold HealthyAfter
  unfold afterLoad at hmoves ⊢
  dsimp only at hmoves ⊢
  have hspec := loadCredentials_spec path m read t
  generalize m.loadCredentials path read t = r at hfailure hmoves hspec ⊢
  cases hspec with
  | failed read t error outputs hrejected =>
      constructor
      · intro h
        refine ⟨fun _ => h.age, ?_, fun hchanges => absurd rfl (hmoves.mp hchanges)⟩
        rintro ⟨secret, pair, hread, hpair, hversion⟩
        exact absurd hversion (hrejected secret hread pair hpair).1
      · intro h
        refine ⟨iff_of_false (fun herror => ?_) (fun hresult => ?_), hgauged.version, ?_⟩
        · cases herror
        · cases hresult
        · exact h.1 (hfailure.mp rfl)
  | unchanged secret t pair outputs hpair hversion =>
      have hfine : ¬ m.Failure (.ok secret) := fun h => by cases hfailure.mpr h
      have hcurrent := m.updateAgeMetric_getCurrentCredential t.age
      constructor
      · intro h
        refine ⟨fun hfailed => absurd hfailed hfine, fun _ => ?_, ?_⟩
        · rw [← updateAgeMetric_lastError m t.age]
          exact h.error.mpr rfl
        · exact fun hchanges => absurd (updateAgeMetric_currentVersion m _) (hmoves.mp hchanges)
      · intro h
        refine ⟨iff_of_true ?_ rfl, ?_, ?_⟩
        · rw [updateAgeMetric_lastError]
          exact h.2.1 ⟨secret, pair, rfl, hpair, hversion⟩
        · rw [hcurrent, updateAgeMetric_credentialVersion]
          exact hgauged.version
        · intro c hc
          rw [hcurrent] at hc
          exact updateAgeMetric_credentialAgeSeconds t.age hc
  | installed secret t credential hpair hchanged httl hversion =>
      obtain ⟨v, hv⟩ := Option.ne_none_iff_exists'.mp (hversioned secret _ rfl hpair)
      have hchanges : m.Changes ⟨.ok secret, t⟩ := ⟨secret, _, _, rfl, hpair, httl, hchanged⟩
      rw [loadInstalled_healthy_iff path hbounded hgauged.fits (hversion.trans hv)]
      constructor
      · intro hexact
        have hfits : (m.loadInstalled path credential t).1 = true := by
          rw [loadInstalled_result, hversion.trans hv]
          intro v' hv'
          rw [Option.mem_some_iff] at hv'
          rw [← hv']
          exact (pyFloat_ok_iff.mp hexact).1
        refine ⟨?_, ?_, ?_⟩
        · intro hfailed
          rw [hfailure.mpr hfailed] at hfits
          cases hfits
        · rintro ⟨secret', pair, hread, -, hsame⟩
          rw [← Except.ok.inj hread] at hsame
          exact absurd hsame hchanged
        · intro _ secret' v' hread hv'
          rw [← Except.ok.inj hread, hv, Option.some.injEq] at hv'
          rw [← hv']
          exact hexact
      · exact fun h => h.2.2 hchanges secret v rfl hv

/-- A load that leaves right values leaves a version gauge that is a float. -/
theorem HealthyAfter.gauged {path : String} {m : CredentialManager} {l : Load}
    (h : HealthyAfter path m l) (hbounded : m.Bounded) (hversioned : Load.Versioned l)
    (hgauged : m.Gauged) : (afterLoad path m l).Gauged where
  version := h.version
  fits := by
    have hfloat := ((healthyAfter_iff path hbounded hversioned hgauged).mp h).2.2
    obtain ⟨read, t⟩ := l
    unfold afterLoad
    dsimp only
    have hspec := loadCredentials_spec path m read t
    generalize m.loadCredentials path read t = r at hspec ⊢
    cases hspec with
    | failed => exact hgauged.fits
    | unchanged =>
        rw [updateAgeMetric_credentialVersion]
        exact hgauged.fits
    | installed secret t credential hpair hchanged httl hversion =>
        obtain ⟨v, hv⟩ := Option.ne_none_iff_exists'.mp (hversioned secret _ rfl hpair)
        have hexact := hfloat ⟨secret, _, _, rfl, hpair, httl, hchanged⟩ secret v rfl hv
        obtain ⟨hlt, hrounded⟩ := pyFloat_ok_iff.mp hexact
        rw [loadInstalled_credentialVersion, hversion, hv]
        split
        · show (roundToFloat v).natAbs < floatBound
          rw [hrounded]
          exact hlt
        · exact hgauged.fits

/-! ## Runs -/

/-- After every load of the run what is published is what there is. -/
def HealthPublished (path : String) (ls : List Load) : Prop :=
  ∀ ls₁ l ls₂, ls = ls₁ ++ l :: ls₂ → HealthyAfter path (afterLoads path init ls₁) l

/-- The load `l'` may come after the load `l`: with a current credential it fails only at
the time of `l`, and it finds the version unchanged only if `l` did not fail. -/
structure MayFollow (path : String) (m : CredentialManager) (l l' : Load) : Prop where
  failure : (afterLoad path m l).Failure l'.read →
    (afterLoad path m l).getCurrentCredential ≠ none → l'.readings.age = l.readings.age
  unchanged : (afterLoad path m l).Unchanged l' → ¬ m.Failure l.read

/-- Each load of the run may come after the one before it, and every version that the
run installs is a float. -/
structure Steady (path : String) (ls : List Load) : Prop where
  follows : ∀ ls₁ l l' ls₂, ls = ls₁ ++ l :: l' :: ls₂ →
    MayFollow path (afterLoads path init ls₁) l l'
  float : ∀ ls₁ l ls₂, ls = ls₁ ++ l :: ls₂ → (afterLoads path init ls₁).InstallsFloat l

/-- After a load that left right values, the next one does so exactly when it may follow
and installs only a float. -/
theorem healthyAfter_next_iff {path : String} {m : CredentialManager} {l l' : Load}
    (hbounded : m.Bounded) (hversioned : Load.Versioned l') (h : HealthyAfter path m l)
    (hgauged : (afterLoad path m l).Gauged) :
    HealthyAfter path (afterLoad path m l) l' ↔
      MayFollow path m l l' ∧ (afterLoad path m l).InstallsFloat l' := by
  have hresult := loadCredentials_eq_false_iff path m l.read l.readings
  have hnext : (afterLoad path m l).Bounded := afterLoad_bounded hbounded
  rw [healthyAfter_iff path hnext hversioned hgauged]
  constructor
  · rintro ⟨hfailure, hunchanged, hfloat⟩
    refine ⟨⟨?_, ?_⟩, hfloat⟩
    · intro hfailed hcurrent
      obtain ⟨c, hc⟩ := Option.ne_none_iff_exists'.mp hcurrent
      have hsame : c.ageSeconds l.readings.age = c.ageSeconds l'.readings.age :=
        (h.age c hc).symm.trans (hfailure hfailed c hc)
      exact (sub_left_inj.mp hsame).symm
    · intro hsame hfailed
      have htrue := h.error.mp (hunchanged hsame)
      rw [hresult.mpr hfailed] at htrue
      cases htrue
  · rintro ⟨hfollow, hfloat⟩
    refine ⟨?_, ?_, hfloat⟩
    · intro hfailed c hc
      have hcurrent : (afterLoad path m l).getCurrentCredential ≠ none := by
        rw [hc]
        exact Option.some_ne_none c
      rw [hfollow.failure hfailed hcurrent]
      exact h.age c hc
    · intro hsame
      apply h.error.mpr
      rw [← Bool.not_eq_false, hresult]
      exact hfollow.unchanged hsame

/-- The first load leaves right values exactly when it installs only a float. -/
theorem healthyAfter_init_iff {path : String} {l : Load} (hversioned : Load.Versioned l) :
    HealthyAfter path init l ↔ init.InstallsFloat l := by
  have hnothing : ∀ c, init.getCurrentCredential ≠ some c := fun c h => by cases h
  rw [healthyAfter_iff path init_bounded hversioned init_gauged]
  exact ⟨fun h => h.2.2, fun h => ⟨fun _ c hc => absurd hc (hnothing c), fun _ => rfl, h⟩⟩

theorem afterLoads_concat (path : String) (m : CredentialManager) (ls : List Load) (l : Load) :
    afterLoads path m (ls ++ [l]) = afterLoad path (afterLoads path m ls) l := by
  unfold afterLoads
  rw [List.foldl_append]
  rfl

/-- A run whose loads all leave right values leaves a version gauge that is a float. -/
theorem HealthPublished.gauged {path : String} {ls₁ ls₂ : List Load}
    (hversioned : ∀ l ∈ ls₁ ++ ls₂, Load.Versioned l)
    (h : HealthPublished path (ls₁ ++ ls₂)) : (afterLoads path init ls₁).Gauged := by
  induction ls₁ using List.reverseRecOn generalizing ls₂ with
  | nil => exact init_gauged
  | append_singleton ls₁ l ih =>
      rw [List.append_assoc] at hversioned h
      have hl : Load.Versioned l := hversioned l (by simp)
      have htracked : (afterLoads path init ls₁).Tracked := tracked_of_append hversioned
      have hhere : HealthyAfter path (afterLoads path init ls₁) l := h ls₁ l ls₂ rfl
      rw [afterLoads_concat]
      exact hhere.gauged htracked.bounded hl (ih hversioned h)

/-- `last_error` tells the result of every load of the run, and both gauges tell the
current credential at its time, exactly when each load of the run may come after the one
before it and every version that the run installs is a float. -/
theorem healthPublished_iff (path : String) (ls : List Load)
    (hversioned : ∀ l ∈ ls, Load.Versioned l) : HealthPublished path ls ↔ Steady path ls := by
  constructor
  · intro hpublished
    have hgauged : ∀ ls₁ ls₂, ls = ls₁ ++ ls₂ → (afterLoads path init ls₁).Gauged := by
      rintro ls₁ ls₂ rfl
      exact hpublished.gauged hversioned
    have htracked : ∀ ls₁ ls₂, ls = ls₁ ++ ls₂ → (afterLoads path init ls₁).Tracked := by
      rintro ls₁ ls₂ rfl
      exact tracked_of_append hversioned
    refine ⟨?_, ?_⟩
    · intro ls₁ l l' ls₂ hls
      have hsplit : ls = (ls₁ ++ [l]) ++ l' :: ls₂ := by rw [hls, List.append_assoc]; rfl
      have hl' : Load.Versioned l' := hversioned l' (by rw [hls]; simp)
      have hafter := hgauged _ _ hsplit
      have hnext := hpublished _ _ _ hsplit
      rw [afterLoads_concat] at hafter hnext
      have hbounded := (htracked _ _ hls).bounded
      exact ((healthyAfter_next_iff hbounded hl' (hpublished _ _ _ hls) hafter).mp hnext).1
    · intro ls₁ l ls₂ hls
      have hl : Load.Versioned l := hversioned l (by rw [hls]; simp)
      have hbounded := (htracked _ _ hls).bounded
      exact ((healthyAfter_iff path hbounded hl (hgauged _ _ hls)).mp (hpublished _ _ _ hls)).2.2
  · intro hsteady
    -- What a load leaves depends on the load before it.
    have hboth : ∀ ls₁ l ls₂, ls = ls₁ ++ l :: ls₂ →
        HealthyAfter path (afterLoads path init ls₁) l ∧ (afterLoads path init ls₁).Gauged := by
      intro ls₁
      induction ls₁ using List.reverseRecOn with
      | nil =>
          intro l ls₂ hls
          have hl : Load.Versioned l := hversioned l (by rw [hls]; simp)
          exact ⟨(healthyAfter_init_iff hl).mpr (hsteady.float [] l ls₂ hls), init_gauged⟩
      | append_singleton ls₁ l ih =>
          intro l' ls₂ hls
          have hfloat := hsteady.float _ _ _ hls
          rw [List.append_assoc, List.singleton_append] at hls
          have hl : Load.Versioned l := hversioned l (by rw [hls]; simp)
          have hl' : Load.Versioned l' := hversioned l' (by rw [hls]; simp)
          have hfollows := hsteady.follows _ _ _ _ hls
          obtain ⟨hhere, hgauged⟩ := ih l (l' :: ls₂) hls
          rw [hls] at hversioned
          have htracked : (afterLoads path init ls₁).Tracked := tracked_of_append hversioned
          have hbounded := htracked.bounded
          have hafter := hhere.gauged hbounded hl hgauged
          rw [afterLoads_concat] at hfloat ⊢
          exact ⟨(healthyAfter_next_iff hbounded hl' hhere hafter).mpr ⟨hfollows, hfloat⟩, hafter⟩
    exact fun ls₁ l ls₂ hls => (hboth ls₁ l ls₂ hls).1

theorem healthPublished_of_along {path : String} {ls : List Load}
    (h : Along (step path) (HealthyAfter path) init ls) : HealthPublished path ls := by
  intro ls₁ l ls₂ hls
  obtain ⟨tr, hrun⟩ := run_afterLoads path init ls₁
  exact along_iff_forall_split.mp h ls₁ l ls₂ _ tr hls hrun

instance (m : CredentialManager) (result : Bool) (now : Rat) : Decidable (m.Healthy result now) :=
  decidable_of_iff
    ((m.lastError = none ↔ result = true) ∧
      (∀ c ∈ m.getCurrentCredential, c.version = some m.credentialVersion) ∧
      ∀ c ∈ m.getCurrentCredential, m.credentialAgeSeconds = c.ageSeconds now)
    ⟨fun h => ⟨h.1, h.2.1, h.2.2⟩, fun h => ⟨h.error, h.version, h.age⟩⟩

instance (path : String) (m : CredentialManager) (l : Load) : Decidable (HealthyAfter path m l) :=
  inferInstanceAs (Decidable (Healthy _ _ _))

theorem healthPublished_iff_rollback :
    HealthPublished ({} : Settings).vaultSecretPath rollbackRun ∧
      Steady ({} : Settings).vaultSecretPath rollbackRun := by
  have hpublished : HealthPublished ({} : Settings).vaultSecretPath rollbackRun :=
    healthPublished_of_along (by decide +kernel)
  exact ⟨hpublished, (healthPublished_iff _ rollbackRun rollbackRun_versioned).mp hpublished⟩

/-- Vault is down for three days after the first version has been loaded, and then
returns the same version. -/
def outageRun : List Load :=
  [sampleLoad 1 "key-v1" 0, ⟨.error "Vault error", .at 259260⟩, sampleLoad 1 "key-v1" 259290]

theorem outageRun_versioned : ∀ l ∈ outageRun, Load.Versioned l := by
  simp only [outageRun, List.forall_mem_cons, List.not_mem_nil, false_implies, implies_true,
    and_true]
  exact ⟨sampleLoad_versioned _ _ _, fun _ _ h => (by cases h), sampleLoad_versioned _ _ _⟩

/-- At the end of the outage the credential is older than three days and the age gauge
says zero; after it the load returns `True` and the error stays. -/
theorem not_healthPublished_outage :
    (∀ l ∈ outageRun, Load.Versioned l) ∧
      (outageRun.map fun l => l.readings.age).Pairwise (· ≤ ·) ∧
      ¬ HealthPublished ({} : Settings).vaultSecretPath outageRun ∧
      ∃ m tr, run (step ({} : Settings).vaultSecretPath) init (outageRun.take 2) = some (m, tr) ∧
        m.getCurrentCredential.map (fun c => c.ageSeconds 259260) = some 259260 ∧
          m.credentialAgeSeconds = 0 ∧
        (m.loadCredentials ({} : Settings).vaultSecretPath
            (.ok (sampleSecret 1 "key-v1" "secret")) (.at 259290)).1 = true ∧
          (m.loadCredentials ({} : Settings).vaultSecretPath
            (.ok (sampleSecret 1 "key-v1" "secret")) (.at 259290)).2.1.lastError =
              some "Vault error" := by
  refine ⟨outageRun_versioned, by decide +kernel, ?_, exists_run (by decide +kernel)⟩
  intro hpublished
  have herror := (hpublished (outageRun.take 2) (sampleLoad 1 "key-v1" 259290) [] rfl).error
  have htrue : ((afterLoads ({} : Settings).vaultSecretPath init
      (outageRun.take 2)).loadCredentials ({} : Settings).vaultSecretPath
        (.ok (sampleSecret 1 "key-v1" "secret")) (.at 259290)).1 = true := by
    decide +kernel
  have hstays : (afterLoad ({} : Settings).vaultSecretPath
      (afterLoads ({} : Settings).vaultSecretPath init (outageRun.take 2))
        (sampleLoad 1 "key-v1" 259290)).lastError = some "Vault error" := by
    decide +kernel
  rw [herror.mpr htrue] at hstays
  cases hstays

end CredentialManager

end PaymentConnector
