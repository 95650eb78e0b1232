import PaymentConnector.Loads

/-!
# The dual-credential window

After an accepted change of version the fallback credential should be the one
that was current before, until the next change.  The cache keeps an
overwritten version where it stands and evicts from the front, so a version
that comes back can be the front entry while it is current; the next new
version then evicts the very credential it should leave as the fallback.  The
window is kept exactly in the runs in which this never happens.

## Main results

* `afterLoad_fallback_iff` — what one change of version does to the window.
* `dualWindow_iff` — the exact condition over whole runs.
-/

namespace PaymentConnector

open Library Library.Machine

namespace CredentialManager

/-- The manager after a list of loads. -/
def afterLoads (path : String) (m : CredentialManager) (ls : List Load) : CredentialManager :=
  ls.foldl (afterLoad path) m

theorem step_eq (path : String) (m : CredentialManager) (l : Load) :
    step path m l = some (afterLoad path m l, (m.loadCredentials path l.read l.readings).2.2) :=
  rfl

theorem run_afterLoads (path : String) (m : CredentialManager) (ls : List Load) :
    ∃ tr, run (step path) m ls = some (afterLoads path m ls, tr) := by
  induction ls generalizing m with
  | nil => exact ⟨[], rfl⟩
  | cons l ls ih =>
      obtain ⟨tr, hrun⟩ := ih (afterLoad path m l)
      exact ⟨(m.loadCredentials path l.read l.readings).2.2 ++ tr,
        run_cons_iff.mpr ⟨afterLoad path m l, _, tr, step_eq path m l, hrun, rfl⟩⟩

theorem run_eq_some {path : String} {m m' : CredentialManager} {ls : List Load}
    {tr : List Output} (h : run (step path) m ls = some (m', tr)) : m' = afterLoads path m ls := by
  obtain ⟨tr', hrun⟩ := run_afterLoads path m ls
  rw [h, Option.some.injEq, Prod.mk.injEq] at hrun
  exact hrun.1

/-! ## Changes of version -/

/-- The load reads a complete secret of another version than the current one. -/
def Changes (m : CredentialManager) (l : Load) : Prop :=
  ∃ secret pair ttl, l.read = .ok secret ∧ secret.keyPair? = some pair ∧
    secret.ttl? = .ok ttl ∧ secret.version ≠ m.currentVersion

/-- Complete secrets have a version. -/
def Load.Versioned (l : Load) : Prop :=
  ∀ secret pair, l.read = .ok secret → secret.keyPair? = some pair → secret.version ≠ none

/-- The change brings a version that is not cached, while the cache is full and
the current version is at its front. -/
def Displaces (m : CredentialManager) (l : Load) : Prop :=
  m.Changes l ∧ m.cache.length = maxCacheSize ∧
    (∃ secret v, l.read = .ok secret ∧ secret.version = some v ∧ ¬ v ∈ m.cache) ∧
      ∃ front, m.cache.front? = some front ∧ m.currentVersion = some front.1

/-- After every accepted change of version of the run and until the next one,
the fallback credential is the one that was current before the change. -/
def DualWindow (path : String) (ls : List Load) : Prop :=
  ∀ ls₁ l ls₂ ls₃, ls = ls₁ ++ l :: (ls₂ ++ ls₃) →
    (afterLoads path init ls₁).Changes l →
      Along (step path) (fun m l => ¬ m.Changes l)
        (afterLoad path (afterLoads path init ls₁) l) ls₂ →
          (afterLoads path (afterLoad path (afterLoads path init ls₁) l)
            ls₂).getFallbackCredential = (afterLoads path init ls₁).getCurrentCredential

/-- What a load leaves as it is unless it changes the version. -/
theorem afterLoad_of_not_changes (path : String) {m : CredentialManager} {l : Load}
    (h : ¬ m.Changes l) :
    (afterLoad path m l).cache = m.cache ∧
      (afterLoad path m l).currentVersion = m.currentVersion ∧
        (afterLoad path m l).previousVersion = m.previousVersion := by
  obtain ⟨read, t⟩ := l
  unfold afterLoad
  dsimp only
  have hspec := loadCredentials_spec path m read t
  generalize m.loadCredentials path read t = r at hspec ⊢
  cases hspec with
  | failed => exact ⟨rfl, rfl, rfl⟩
  | unchanged => exact ⟨by simp, by simp, by simp⟩
  | installed secret t credential hpair hchanged httl =>
      exact absurd ⟨secret, _, credential.ttl, rfl, hpair, httl, hchanged⟩ h

/-- A load changes the version exactly when the version afterwards is another one. -/
theorem changes_iff (path : String) {m : CredentialManager} {l : Load} :
    m.Changes l ↔ (afterLoad path m l).currentVersion ≠ m.currentVersion := by
  constructor
  · intro h
    obtain ⟨read, t⟩ := l
    obtain ⟨secret, pair, ttl, hread, hpair, httl, hchanged⟩ := h
    unfold afterLoad
    dsimp only at hread ⊢
    have hspec := loadCredentials_spec path m read t
    generalize m.loadCredentials path read t = r at hspec ⊢
    cases hspec with
    | failed read t error outputs hrejected =>
        obtain ⟨-, exc, herror⟩ := hrejected secret hread pair hpair
        rw [herror] at httl
        cases httl
    | unchanged secret' t pair' outputs hpair' hversion =>
        rw [← Except.ok.inj hread] at hchanged
        exact absurd hversion hchanged
    | installed secret' t credential hpair' hchanged' httl' hversion =>
        rw [loadInstalled_currentVersion, hversion]
        exact hchanged'
  · intro h
    by_contra hsame
    exact h (afterLoad_of_not_changes path hsame).2.1

/-! ## The invariant -/

/-- Under versioned loads: before the first change there is nothing, and
afterwards the current version is cached. -/
structure Tracked (m : CredentialManager) : Prop where
  bounded : m.Bounded
  blank : m.currentVersion = none → m.cache = .empty
  cached : ∀ v, m.currentVersion = some v → v ∈ m.cache

theorem init_tracked : init.Tracked where
  bounded := init_bounded
  blank := fun _ => rfl
  cached := fun _ h => by cases h

theorem afterLoad_tracked {path : String} {m : CredentialManager} {l : Load} (h : m.Tracked)
    (hversioned : Load.Versioned l) : (afterLoad path m l).Tracked := by
  by_cases hchanges : m.Changes l
  · obtain ⟨read, t⟩ := l
    have hbounded : (afterLoad path m ⟨read, t⟩).Bounded := afterLoad_bounded h.bounded
    unfold afterLoad at hbounded ⊢
    dsimp only at hbounded ⊢
    have hspec := loadCredentials_spec path m read t
    generalize m.loadCredentials path read t = r at hspec hbounded ⊢
    cases hspec with
    | failed read t error => exact ⟨hbounded, h.blank, h.cached⟩
    | unchanged => exact ⟨hbounded, by simpa using h.blank, by simpa using h.cached⟩
    | installed secret t credential hpair hchanged httl hversion =>
        obtain ⟨v, hv⟩ := Option.ne_none_iff_exists'.mp (hversioned secret _ rfl hpair)
        have hkey : cacheKey credential.version t = v := by simp [cacheKey, hversion, hv]
        refine ⟨hbounded, ?_, ?_⟩
        · intro hnone
          rw [loadInstalled_currentVersion, hversion, hv] at hnone
          cases hnone
        · intro v' hcurrent
          rw [loadInstalled_currentVersion, hversion, hv, Option.some.injEq] at hcurrent
          rw [loadInstalled_cache, hkey, ← hcurrent, OrderedDict.mem_evictOver]
          refine ⟨(OrderedDict.mem_set _ _ _ _).mpr (Or.inl rfl), ?_⟩
          exact OrderedDict.not_mem_overflow_set_self (by decide) h.bounded v credential
  · obtain ⟨hcache, hcurrent, -⟩ := afterLoad_of_not_changes path hchanges
    refine ⟨afterLoad_bounded h.bounded, ?_, ?_⟩
    · rw [hcache, hcurrent]
      exact h.blank
    · rw [hcache, hcurrent]
      exact h.cached

/-! ## One change of version -/

/-- The first change finds nothing current and leaves nothing to fall back on. -/
private theorem fallback_of_blank {path : String} {m : CredentialManager}
    {credential : Credential} {t : LoadReadings} (hcache : m.cache = .empty)
    (hcurrent : m.currentVersion = none) :
    (m.loadInstalled path credential t).2.1.getFallbackCredential = none := by
  unfold getFallbackCredential
  rw [loadInstalled_previousVersion, loadInstalled_cache, hcurrent, hcache]
  rfl

/-- A later change leaves the old current version as the fallback, unless it is
evicted. -/
private theorem fallback_of_current {path : String} {m : CredentialManager}
    {credential : Credential} {t : LoadReadings} {u v : Int}
    (hcurrent : m.currentVersion = some u) (hversion : credential.version = some v)
    (hne : u ≠ v) :
    (m.loadInstalled path credential t).2.1.getFallbackCredential =
      if u ∈ OrderedDict.overflow maxCacheSize (m.cache.set v credential) then none
      else m.getCurrentCredential := by
  have hkey : cacheKey credential.version t = v := by simp [cacheKey, hversion]
  unfold getFallbackCredential getCurrentCredential
  rw [loadInstalled_previousVersion, loadInstalled_cache, hcurrent, hkey]
  show OrderedDict.get? _ u = _
  rw [OrderedDict.get?_evictOver, OrderedDict.get?_set_ne _ hne]

/-- What a full cache evicts on a new version is its front. -/
private theorem mem_overflow_iff {m : CredentialManager} (hbounded : m.Bounded) {u v : Int}
    (hcached : u ∈ m.cache) (credential : Credential) :
    u ∈ OrderedDict.overflow maxCacheSize (m.cache.set v credential) ↔
      ¬ v ∈ m.cache ∧ m.cache.length = maxCacheSize ∧
        ∃ front, m.cache.front? = some front ∧ u = front.1 := by
  obtain ⟨front, rest, hentries⟩ : ∃ front rest, m.cache.entries = front :: rest := by
    cases hentries : m.cache.entries with
    | nil =>
        rw [OrderedDict.mem_def, OrderedDict.keys, hentries] at hcached
        cases hcached
    | cons front rest => exact ⟨front, rest, rfl⟩
  have hfront : m.cache.front? = some front := by rw [OrderedDict.front?, hentries, List.head?_cons]
  have hkeys : m.cache.keys = front.1 :: rest.map Prod.fst := by
    rw [OrderedDict.keys, hentries, List.map_cons]
  rw [OrderedDict.overflow_set hbounded, hfront, hkeys]
  by_cases hfull : ¬ v ∈ m.cache ∧ m.cache.length = maxCacheSize
  · simp [hfull]
  · rw [if_neg hfull]
    constructor
    · intro hin
      cases hin
    · intro hin
      exact absurd ⟨hin.1, hin.2.1⟩ hfull

/-- A change of version leaves the credential that was current as the fallback,
unless it displaces it. -/
theorem afterLoad_fallback_iff {path : String} {m : CredentialManager} {l : Load}
    (h : m.Tracked) (hversioned : Load.Versioned l) (hchanges : m.Changes l) :
    (afterLoad path m l).getFallbackCredential = m.getCurrentCredential ↔ ¬ m.Displaces l := by
  obtain ⟨read, t⟩ := l
  have hmoved := (changes_iff path).mp hchanges
  unfold afterLoad at hmoved ⊢
  dsimp only at hmoved ⊢
  have hspec := loadCredentials_spec path m read t
  generalize m.loadCredentials path read t = r at hspec hmoved ⊢
  cases hspec with
  | failed => exact absurd rfl hmoved
  | unchanged => exact absurd (updateAgeMetric_currentVersion m _) hmoved
  | installed secret t credential hpair hchanged httl hversion =>
      obtain ⟨v, hv⟩ := Option.ne_none_iff_exists'.mp (hversioned secret _ rfl hpair)
      cases hcurrent : m.currentVersion with
      | none =>
          have hcache := h.blank hcurrent
          have hnothing : m.getCurrentCredential = none := by
            unfold getCurrentCredential
            rw [hcurrent, hcache]
            rfl
          rw [hnothing]
          refine ⟨fun _ => ?_, fun _ => fallback_of_blank hcache hcurrent⟩
          intro hdisplaces
          obtain ⟨-, -, -, front, -, hfront⟩ := hdisplaces
          rw [hcurrent] at hfront
          cases hfront
      | some u =>
          have hne : u ≠ v := by
            intro heq
            rw [hv, hcurrent, heq] at hchanged
            exact hchanged rfl
          have hcached := h.cached u hcurrent
          obtain ⟨c, hc⟩ : ∃ c, m.getCurrentCredential = some c := by
            unfold getCurrentCredential
            rw [hcurrent]
            exact OrderedDict.exists_get?_of_mem hcached
          have hiff := mem_overflow_iff h.bounded (v := v) hcached credential
          rw [fallback_of_current hcurrent (hversion.trans hv) hne, hc]
          constructor
          · intro hkept hdisplaces
            obtain ⟨-, hfull, ⟨secret', v', hread, hv', hnew⟩, front, hfront, hcur⟩ := hdisplaces
            rw [Except.ok.injEq] at hread
            rw [← hread, hv, Option.some.injEq] at hv'
            rw [hcurrent, Option.some.injEq] at hcur
            have hout := hiff.mpr ⟨by rw [hv']; exact hnew, hfull, front, hfront, hcur⟩
            rw [if_pos hout] at hkept
            cases hkept
          · intro hstays
            apply if_neg
            intro hout
            obtain ⟨hnew, hfull, front, hfront, hcur⟩ := hiff.mp hout
            exact hstays ⟨hchanges, hfull, ⟨secret, v, rfl, hv, hnew⟩, front, hfront,
              by rw [hcurrent, hcur]⟩

/-! ## Whole runs -/

theorem afterLoads_tracked {path : String} {ls : List Load}
    (hversioned : ∀ l ∈ ls, Load.Versioned l) {m : CredentialManager} (h : m.Tracked) :
    (afterLoads path m ls).Tracked := by
  induction ls generalizing m with
  | nil => exact h
  | cons l ls ih =>
      have hrest : ∀ l' ∈ ls, Load.Versioned l' :=
        fun l' hl' => hversioned l' (List.mem_cons_of_mem l hl')
      exact ih hrest (afterLoad_tracked h (hversioned l List.mem_cons_self))

/-- The manager is tracked at every point of a run of versioned loads. -/
theorem tracked_of_append {path : String} {ls₁ ls₂ : List Load}
    (hversioned : ∀ l ∈ ls₁ ++ ls₂, Load.Versioned l) : (afterLoads path init ls₁).Tracked :=
  afterLoads_tracked (fun l hl => hversioned l (List.mem_append_left ls₂ hl)) init_tracked

/-- Between two changes the fallback stays. -/
theorem afterLoads_fallback {path : String} {ls : List Load} {m : CredentialManager}
    (h : Along (step path) (fun m l => ¬ m.Changes l) m ls) :
    (afterLoads path m ls).getFallbackCredential = m.getFallbackCredential := by
  induction ls generalizing m with
  | nil => rfl
  | cons l ls ih =>
      have hrest := ih (h.2 _ _ (step_eq path m l))
      obtain ⟨hcache, -, hprevious⟩ := afterLoad_of_not_changes path h.1
      have hhere := getFallbackCredential_congr hcache hprevious
      exact hrest.trans hhere

/-- The window is kept over a whole run exactly when in the run no change of
version evicts the current credential from the front of a full cache. -/
theorem dualWindow_iff (path : String) (ls : List Load)
    (hversioned : ∀ l ∈ ls, Load.Versioned l) :
    DualWindow path ls ↔ Along (step path) (fun m l => ¬ m.Displaces l) init ls := by
  rw [along_iff_forall_split]
  constructor
  · intro hwindow ls₁ l ls₂ m₁ tr₁ hls hrun hdisplaces
    rw [run_eq_some hrun] at hdisplaces
    have hl : Load.Versioned l := hversioned l (by rw [hls]; simp)
    have hkept := hwindow ls₁ l [] ls₂ hls hdisplaces.1 trivial
    rw [hls] at hversioned
    have htracked : (afterLoads path init ls₁).Tracked := tracked_of_append hversioned
    exact (afterLoad_fallback_iff htracked hl hdisplaces.1).mp hkept hdisplaces
  · intro hstays ls₁ l ls₂ ls₃ hls hchanges hquiet
    have hl : Load.Versioned l := hversioned l (by rw [hls]; simp)
    obtain ⟨tr, hrun⟩ := run_afterLoads path init ls₁
    have hnot := hstays ls₁ l (ls₂ ++ ls₃) _ tr hls hrun
    rw [hls] at hversioned
    have htracked : (afterLoads path init ls₁).Tracked := tracked_of_append hversioned
    rw [afterLoads_fallback hquiet]
    exact (afterLoad_fallback_iff htracked hl hchanges).mpr hnot

/-- A load of the given version, key and secret. -/
def sampleLoad (version : Int) (apiKey : String) (now : Rat) : Load :=
  ⟨.ok (sampleSecret version apiKey "secret"), .at now⟩

theorem sampleLoad_versioned (version : Int) (apiKey : String) (now : Rat) :
    Load.Versioned (sampleLoad version apiKey now) := by
  intro secret pair hread _
  have hversion : secret.version = some version := by
    rw [← Except.ok.inj hread]
    rfl
  rw [hversion]
  exact Option.some_ne_none version

/-- Versions that only go up, as in the service's tests. -/
def upwardRun : List Load :=
  [sampleLoad 1 "key-v1" 0, sampleLoad 2 "key-v2" 30, sampleLoad 3 "key-v3" 60]

theorem dualWindow_iff_upward :
    DualWindow ({} : Settings).vaultSecretPath upwardRun ∧
      Along (step ({} : Settings).vaultSecretPath) (fun m l => ¬ m.Displaces l) init upwardRun := by
  have hroom : Along (step ({} : Settings).vaultSecretPath)
      (fun m _ => m.cache.length ≠ maxCacheSize) init upwardRun := by decide +kernel
  have hstays : Along (step ({} : Settings).vaultSecretPath) (fun m l => ¬ m.Displaces l) init
      upwardRun :=
    along_imp (I := fun _ _ => True) (fun _ _ _ _ _ _ _ _ => trivial)
      (fun _ _ _ _ hlength hdisplaces => hlength hdisplaces.2.1) trivial hroom
  have hversioned : ∀ l ∈ upwardRun, Load.Versioned l := by
    simp only [upwardRun, List.forall_mem_cons, List.not_mem_nil, false_implies, implies_true,
      and_true]
    exact ⟨sampleLoad_versioned _ _ _, sampleLoad_versioned _ _ _, sampleLoad_versioned _ _ _⟩
  exact ⟨(dualWindow_iff _ upwardRun hversioned).mpr hstays, hstays⟩

/-- Five versions fill the cache, then the first one comes back. -/
def rollbackRun : List Load :=
  [sampleLoad 1 "key-v1" 0, sampleLoad 2 "key-v2" 30, sampleLoad 3 "key-v3" 60,
    sampleLoad 4 "key-v4" 90, sampleLoad 5 "key-v5" 120, sampleLoad 1 "key-v1" 150]

theorem rollbackRun_versioned : ∀ l ∈ rollbackRun, Load.Versioned l := by
  simp only [rollbackRun, List.forall_mem_cons, List.not_mem_nil, false_implies, implies_true,
    and_true]
  exact ⟨sampleLoad_versioned _ _ _, sampleLoad_versioned _ _ _, sampleLoad_versioned _ _ _,
    sampleLoad_versioned _ _ _, sampleLoad_versioned _ _ _, sampleLoad_versioned _ _ _⟩

/-- The version after a rollback evicts the version rolled back to. -/
theorem not_dualWindow_rollback :
    (∀ l ∈ rollbackRun ++ [sampleLoad 6 "key-v6" 180], Load.Versioned l) ∧
      ¬ DualWindow ({} : Settings).vaultSecretPath
        (rollbackRun ++ [sampleLoad 6 "key-v6" 180]) := by
  refine ⟨?_, ?_⟩
  · intro l hl
    rcases List.mem_append.mp hl with hrun | hlast
    · exact rollbackRun_versioned l hrun
    · rw [List.mem_singleton.mp hlast]
      exact sampleLoad_versioned _ _ _
  · intro hwindow
    have hkept := hwindow rollbackRun (sampleLoad 6 "key-v6" 180) [] [] rfl
      ⟨sampleSecret 6 "key-v6" "secret", _, none, rfl, rfl, rfl, by decide +kernel⟩ trivial
    have hnone : (afterLoads ({} : Settings).vaultSecretPath init
        (rollbackRun ++ [sampleLoad 6 "key-v6" 180])).getFallbackCredential.isNone = true := by
      decide +kernel
    have hsome : (afterLoads ({} : Settings).vaultSecretPath init
        rollbackRun).getCurrentCredential.isSome = true := by
      decide +kernel
    rw [← hkept] at hsome
    have hfallback : (afterLoad ({} : Settings).vaultSecretPath
        (afterLoads ({} : Settings).vaultSecretPath init rollbackRun)
        (sampleLoad 6 "key-v6" 180)).getFallbackCredential = none :=
      Option.isNone_iff_eq_none.mp hnone
    rw [show afterLoads _ (afterLoad _ _ (sampleLoad 6 "key-v6" 180)) [] = afterLoad _ _ _ from rfl,
      hfallback] at hsome
    cases hsome

end CredentialManager

end PaymentConnector
