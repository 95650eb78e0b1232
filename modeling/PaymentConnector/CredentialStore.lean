import PaymentConnector.DualWindow

/-!
# The credential store

What the manager holds after any run of loads, said of the list of credentials
that the run accepted: the cache is bounded and files each credential under its
own version, the current credential is the last one accepted, and a fallback is
the last one accepted of another version.

## Main results

* `loadCredentials_of_accepted` — an accepted load installs `accepted?`.
* `Stores` — the invariant, kept by every load of a versioned secret.
* `credentialStore` — the three laws after every run.
-/

namespace PaymentConnector

open Library Library.Machine

/-- A key pair that is there is truthy. -/
theorem SecretData.truthy_of_keyPair? {secret : SecretData} {pair : Json × Json}
    (h : secret.keyPair? = some pair) : pair.1.truthy = true ∧ pair.2.truthy = true := by
  unfold keyPair? at h
  split at h
  · split at h
    · rename_i htruthy
      rw [Option.some.injEq] at h
      rw [← h]
      simpa using htruthy
    · cases h
  · cases h

/-- The `ttl` of a payload, before it is converted. -/
theorem SecretData.jsonGet_of_ttl? {secret : SecretData} {ttl : Option Int}
    (h : secret.ttl? = .ok ttl) :
    ∃ raw, jsonGet secret.data "ttl" .null = .ok raw ∧
      CredentialManager.parseTtl raw = .ok ttl := by
  unfold ttl? at h
  split at h
  · cases h
  · rename_i raw hraw
    exact ⟨raw, hraw, h⟩

namespace CredentialManager

/-! ## Accepted credentials -/

/-- The credential that a load accepts: that of a complete secret of another
version than the current one. -/
def accepted? (m : CredentialManager) (l : Load) : Option Credential :=
  match l.read with
  | .error _ => none
  | .ok secret =>
      match secret.keyPair?, secret.ttl? with
      | some (apiKey, apiSecret), .ok ttl =>
          if secret.version = m.currentVersion then none
          else some
            { oid := m.nextOid
              apiKey := apiKey
              apiSecret := apiSecret
              version := secret.version
              loadedAt := l.readings.loaded
              createdTime := secret.createdTime
              ttl := ttl }
      | _, _ => none

/-- The credentials that a run of loads accepts, first to last. -/
def accepted (path : String) : CredentialManager → List Load → List Credential
  | _, [] => []
  | m, l :: ls => (m.accepted? l).toList ++ accepted path (afterLoad path m l) ls

theorem accepted?_eq_some {m : CredentialManager} {l : Load} {c : Credential}
    (h : m.accepted? l = some c) :
    ∃ secret, l.read = .ok secret ∧ secret.keyPair? = some (c.apiKey, c.apiSecret) ∧
      secret.ttl? = .ok c.ttl ∧ secret.version ≠ m.currentVersion ∧
        c = { oid := m.nextOid
              apiKey := c.apiKey
              apiSecret := c.apiSecret
              version := secret.version
              loadedAt := l.readings.loaded
              createdTime := secret.createdTime
              ttl := c.ttl } := by
  unfold accepted? at h
  split at h
  · cases h
  · rename_i secret hread
    split at h
    · rename_i apiKey apiSecret ttl hpair httl
      split at h
      · cases h
      · rename_i hchanged
        rw [Option.some.injEq] at h
        subst h
        exact ⟨secret, hread, hpair, httl, hchanged, rfl⟩
    · cases h

/-- A load accepts a credential exactly when it changes the version. -/
theorem accepted?_eq_none_iff {m : CredentialManager} {l : Load} :
    m.accepted? l = none ↔ ¬ m.Changes l := by
  constructor
  · rintro hnone ⟨secret, ⟨apiKey, apiSecret⟩, ttl, hread, hpair, httl, hchanged⟩
    simp [accepted?, hread, hpair, httl, hchanged] at hnone
  · intro hsame
    cases hc : m.accepted? l with
    | none => rfl
    | some c =>
        obtain ⟨secret, hread, hpair, httl, hchanged, -⟩ := accepted?_eq_some hc
        exact absurd ⟨secret, _, _, hread, hpair, httl, hchanged⟩ hsame

/-- A load installs the credential that it accepts. -/
theorem loadCredentials_of_accepted (path : String) {m : CredentialManager} {l : Load}
    {c : Credential} (h : m.accepted? l = some c) :
    m.loadCredentials path l.read l.readings = m.loadInstalled path c l.readings := by
  obtain ⟨secret, hread, hpair, httl, hchanged, hc⟩ := accepted?_eq_some h
  obtain ⟨hkey, hsecret⟩ := jsonGet_of_keyPair? hpair
  obtain ⟨hkeyTruthy, hsecretTruthy⟩ := SecretData.truthy_of_keyPair? hpair
  obtain ⟨raw, hraw, hparse⟩ := SecretData.jsonGet_of_ttl? httl
  have hexamine : m.examine secret l.readings = .ok (.accepted c) := by
    rw [hc]
    simp only [examine, hkey, hsecret, hraw, hparse, hkeyTruthy, hsecretTruthy, hchanged,
      bind, Except.bind, pure, Except.pure, Bool.not_true, Bool.or_self, Bool.false_eq_true,
      if_false]
  simp only [loadCredentials, hread, processSecret, hexamine, loadInstalled]

theorem afterLoad_of_accepted (path : String) {m : CredentialManager} {l : Load}
    {c : Credential} (h : m.accepted? l = some c) :
    afterLoad path m l = (m.loadInstalled path c l.readings).2.1 := by
  unfold afterLoad
  rw [loadCredentials_of_accepted path h]

/-! ## The invariant -/

/-- The last of the credentials with the given version. -/
def latest? (cs : List Credential) (version : Option Int) : Option Credential :=
  cs.reverse.find? (fun c => c.version = version)

@[simp] theorem latest?_append_self (cs : List Credential) (c : Credential) :
    latest? (cs ++ [c]) c.version = some c := by
  simp [latest?]

theorem latest?_append_ne {cs : List Credential} {c : Credential} {version : Option Int}
    (h : c.version ≠ version) : latest? (cs ++ [c]) version = latest? cs version := by
  simp [latest?, h]

/-- What the manager holds, in terms of the credentials accepted so far. -/
structure Stores (m : CredentialManager) (cs : List Credential) : Prop where
  tracked : m.Tracked
  filed : ∀ v c, m.cache.get? v = some c → c.version = some v ∧ latest? cs (some v) = some c
  current : m.getCurrentCredential = cs.getLast?
  version : m.currentVersion = cs.getLast?.bind Credential.version
  previous : ∀ u, m.previousVersion = some u → m.currentVersion ≠ some u
  single : m.previousVersion = none → m.cache.length ≤ 1

theorem init_stores : init.Stores [] where
  tracked := init_tracked
  filed := fun v c h => by cases h
  current := rfl
  version := rfl
  previous := fun u h => by cases h
  single := fun _ => Nat.zero_le 1

theorem Stores.of_same {m m' : CredentialManager} {cs : List Credential} (h : m.Stores cs)
    (htracked : m'.Tracked) (hcache : m'.cache = m.cache)
    (hcurrent : m'.currentVersion = m.currentVersion)
    (hprevious : m'.previousVersion = m.previousVersion) : m'.Stores cs where
  tracked := htracked
  filed := by
    rw [hcache]
    exact h.filed
  current := by
    rw [getCurrentCredential_congr hcache hcurrent]
    exact h.current
  version := by
    rw [hcurrent]
    exact h.version
  previous := by
    rw [hprevious, hcurrent]
    exact h.previous
  single := by
    rw [hprevious, hcache]
    exact h.single

/-- Installing a credential of a new version. -/
theorem Stores.loadInstalled {path : String} {m : CredentialManager} {cs : List Credential}
    {c : Credential} {t : LoadReadings} {v : Int} (h : m.Stores cs)
    (htracked : (m.loadInstalled path c t).2.1.Tracked) (hversion : c.version = some v)
    (hchanged : m.currentVersion ≠ some v) :
    (m.loadInstalled path c t).2.1.Stores (cs ++ [c]) where
  tracked := htracked
  filed := by
    have hkey : cacheKey c.version t = v := by rw [hversion]; rfl
    intro u d hget
    rw [loadInstalled_cache, hkey, OrderedDict.get?_evictOver] at hget
    split at hget
    · cases hget
    · by_cases hu : u = v
      · rw [hu, OrderedDict.get?_set_self, Option.some.injEq] at hget
        rw [hu, ← hget, ← hversion]
        exact ⟨rfl, latest?_append_self cs c⟩
      · rw [OrderedDict.get?_set_ne _ hu] at hget
        have hne : c.version ≠ some u := by
          rw [hversion]
          exact fun heq => hu (Option.some.inj heq).symm
        rw [latest?_append_ne hne]
        exact h.filed u d hget
  current := by
    rw [loadInstalled_getCurrent_of_version path t h.tracked.bounded hversion]
    exact List.getLast?_concat.symm
  version := by
    rw [loadInstalled_currentVersion, List.getLast?_concat]
    rfl
  previous := by
    intro u hu
    rw [loadInstalled_previousVersion] at hu
    rw [loadInstalled_currentVersion, hversion, ← hu]
    exact hchanged.symm
  single := by
    intro hnone
    rw [loadInstalled_previousVersion] at hnone
    rw [loadInstalled_cache, h.tracked.blank hnone, OrderedDict.length_evictOver]
    exact Nat.min_le_left _ _

theorem afterLoad_stores {path : String} {m : CredentialManager} {l : Load}
    {cs : List Credential} (h : m.Stores cs) (hversioned : Load.Versioned l) :
    (afterLoad path m l).Stores (cs ++ (m.accepted? l).toList) := by
  have htracked : (afterLoad path m l).Tracked := afterLoad_tracked h.tracked hversioned
  cases hc : m.accepted? l with
  | none =>
      obtain ⟨hcache, hcurrent, hprevious⟩ :=
        afterLoad_of_not_changes path (accepted?_eq_none_iff.mp hc)
      rw [Option.toList_none, List.append_nil]
      exact h.of_same htracked hcache hcurrent hprevious
  | some c =>
      obtain ⟨secret, hread, hpair, httl, hchanged, heq⟩ := accepted?_eq_some hc
      obtain ⟨v, hv⟩ := Option.ne_none_iff_exists'.mp (hversioned secret _ hread hpair)
      have hversion : c.version = some v := by
        rw [heq]
        exact hv
      rw [afterLoad_of_accepted path hc] at htracked ⊢
      exact h.loadInstalled htracked hversion (fun hsame => hchanged (hv.trans hsame.symm))

theorem afterLoads_stores {path : String} {ls : List Load}
    (hversioned : ∀ l ∈ ls, Load.Versioned l) {m : CredentialManager} {cs : List Credential}
    (h : m.Stores cs) : (afterLoads path m ls).Stores (cs ++ accepted path m ls) := by
  induction ls generalizing m cs with
  | nil =>
      rw [accepted, List.append_nil]
      exact h
  | cons l ls ih =>
      have hhere : (afterLoad path m l).Stores (cs ++ (m.accepted? l).toList) :=
        afterLoad_stores h (hversioned l List.mem_cons_self)
      have hrest := ih (fun l' hl' => hversioned l' (List.mem_cons_of_mem l hl')) hhere
      rw [accepted, ← List.append_assoc]
      exact hrest

/-! ## The three laws -/

/-- Without a previous version there is nothing to fall back on. -/
theorem Stores.previousVersion_of_fallback {m : CredentialManager} {cs : List Credential}
    (h : m.Stores cs) {c : Credential} (hc : m.getFallbackCredential = some c) :
    ∃ u, m.previousVersion = some u ∧ m.cache.get? u = some c := by
  unfold getFallbackCredential at hc
  cases hprevious : m.previousVersion with
  | some u =>
      rw [hprevious] at hc
      exact ⟨u, rfl, hc⟩
  | none =>
      rw [hprevious] at hc
      obtain ⟨hlt, -⟩ := List.getElem?_eq_some_iff.mp hc
      have hlength : m.cache.values.reverse.length = m.cache.length := by
        rw [List.length_reverse, OrderedDict.values, List.length_map]
        rfl
      have hsingle := h.single hprevious
      omega

/-- After every run of loads of versioned secrets: the cache holds at most five
credentials, each under its own version; once a credential has been accepted,
the current one is the last accepted; and a fallback has another version than
the current one and is the last accepted of its version. -/
theorem credentialStore (path : String) (ls : List Load)
    (hversioned : ∀ l ∈ ls, Load.Versioned l) :
    ((afterLoads path init ls).cache.length ≤ 5 ∧ (afterLoads path init ls).cache.keys.Nodup ∧
        ∀ v c, (afterLoads path init ls).cache.get? v = some c → c.version = some v) ∧
      (accepted path init ls ≠ [] →
        (afterLoads path init ls).getCurrentCredential ≠ none ∧
          (afterLoads path init ls).getCurrentCredential = (accepted path init ls).getLast?) ∧
      ∀ c, (afterLoads path init ls).getFallbackCredential = some c →
        (∃ current, (afterLoads path init ls).getCurrentCredential = some current ∧
            c.version ≠ current.version) ∧
          latest? (accepted path init ls) c.version = some c := by
  have h : (afterLoads path init ls).Stores ([] ++ accepted path init ls) :=
    afterLoads_stores hversioned init_stores
  rw [List.nil_append] at h
  refine ⟨⟨h.tracked.bounded, (afterLoads path init ls).cache.nodup, ?_⟩, ?_, ?_⟩
  · exact fun v c hget => (h.filed v c hget).1
  · intro hne
    rw [h.current]
    refine ⟨?_, rfl⟩
    rw [ne_eq, List.getLast?_eq_none_iff]
    exact hne
  · intro c hc
    obtain ⟨u, hprevious, hget⟩ := h.previousVersion_of_fallback hc
    obtain ⟨hversion, hlatest⟩ := h.filed u c hget
    rw [hversion]
    refine ⟨?_, hlatest⟩
    cases hlast : (accepted path init ls).getLast? with
    | none =>
        rw [List.getLast?_eq_none_iff] at hlast
        rw [hlast] at hlatest
        cases hlatest
    | some current =>
        refine ⟨current, h.current.trans hlast, ?_⟩
        have hcurrent := h.version
        rw [hlast, Option.bind_some] at hcurrent
        rw [← hcurrent]
        exact (h.previous u hprevious).symm

/-- Five versions, and the first one again: it is current, and the fallback is
the fifth. -/
theorem credentialStore_rollback :
    (afterLoads ({} : Settings).vaultSecretPath init rollbackRun).cache.length ≤ 5 ∧
      (afterLoads ({} : Settings).vaultSecretPath init rollbackRun).getCurrentCredential =
        (accepted ({} : Settings).vaultSecretPath init rollbackRun).getLast? ∧
      ∃ c, (afterLoads ({} : Settings).vaultSecretPath init rollbackRun).getFallbackCredential =
          some c ∧
        latest? (accepted ({} : Settings).vaultSecretPath init rollbackRun) c.version = some c := by
  obtain ⟨⟨hbounded, -⟩, hcurrent, hfallback⟩ :=
    credentialStore ({} : Settings).vaultSecretPath rollbackRun rollbackRun_versioned
  have hsome : (afterLoads ({} : Settings).vaultSecretPath init
      rollbackRun).getFallbackCredential.isSome = true := by
    decide +kernel
  have haccepted : accepted ({} : Settings).vaultSecretPath init rollbackRun ≠ [] := by
    decide +kernel
  obtain ⟨c, hc⟩ := Option.isSome_iff_exists.mp hsome
  exact ⟨hbounded, (hcurrent haccepted).2, c, hc, (hfallback c hc).2⟩

end CredentialManager

end PaymentConnector
