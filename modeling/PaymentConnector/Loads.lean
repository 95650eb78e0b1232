import PaymentConnector.CredentialManager
import PaymentConnector.Library.Machine

/-!
# Runs of loads

The refresh loop calls `load_credentials` again and again; a run of the
manager is a list of loads, each with the outcome of its Vault read and its
clock readings.

A load that reports success should leave the manager with what Vault holds.
It compares version numbers only, so it reports success without looking at the
data when the version is the current one (no version at all included), and a
version-less secret is cached under the current second, which need not be the
last key of the cache.  These are the only ways to fail.

## Main results

* `step_bounded` — the cache never holds more than `maxCacheSize` credentials.
* `truthful_iff` — the exact condition under which every load of a run that
  returns `True` leaves the credential just read as the current one.
-/

namespace PaymentConnector

open Library Library.Machine

/-- One call of `load_credentials`. -/
structure Load where
  read : VaultRead
  readings : LoadReadings

namespace CredentialManager

/-- The manager as a machine; every load is enabled. -/
def step (path : String) (m : CredentialManager) (l : Load) :
    Option (CredentialManager × List Output) :=
  let (_, m', outputs) := m.loadCredentials path l.read l.readings
  some (m', outputs)

/-- The manager after a load. -/
def afterLoad (path : String) (m : CredentialManager) (l : Load) : CredentialManager :=
  (m.loadCredentials path l.read l.readings).2.1

theorem step_eq_some_iff {path : String} {m m' : CredentialManager} {l : Load}
    {outputs : List Output} :
    step path m l = some (m', outputs) ↔
      m' = afterLoad path m l ∧ outputs = (m.loadCredentials path l.read l.readings).2.2 := by
  simp only [step, afterLoad, Option.some.injEq, Prod.mk.injEq]
  constructor
  · exact fun h => ⟨h.1.symm, h.2.symm⟩
  · exact fun h => ⟨h.1.symm, h.2.symm⟩

/-! ## The bound of the cache -/

/-- The cache is within its bound. -/
def Bounded (m : CredentialManager) : Prop := m.cache.length ≤ maxCacheSize

theorem init_bounded : init.Bounded := Nat.zero_le maxCacheSize

theorem afterLoad_bounded {path : String} {m : CredentialManager} {l : Load} (h : m.Bounded) :
    (afterLoad path m l).Bounded := by
  obtain ⟨read, t⟩ := l
  show (m.loadCredentials path read t).2.1.cache.length ≤ maxCacheSize
  have hspec := loadCredentials_spec path m read t
  generalize m.loadCredentials path read t = r at hspec ⊢
  cases hspec with
  | failed => exact h
  | unchanged =>
      show (m.updateAgeMetric t.age).cache.length ≤ maxCacheSize
      rw [updateAgeMetric_cache]
      exact h
  | installed secret t credential =>
      show (m.loadInstalled path credential t).2.1.cache.length ≤ maxCacheSize
      rw [loadInstalled_cache, OrderedDict.length_evictOver]
      exact Nat.min_le_right _ _

theorem step_bounded {path : String} {m m' : CredentialManager} {l : Load}
    {outputs : List Output} (h : m.Bounded) (hstep : step path m l = some (m', outputs)) :
    m'.Bounded := by
  rw [(step_eq_some_iff.mp hstep).1]
  exact afterLoad_bounded h

/-! ## What is current after a load -/

/-- A credential installed under a version is the current one. -/
theorem loadInstalled_getCurrent_of_version (path : String) {m : CredentialManager}
    {credential : Credential} (t : LoadReadings) {v : Int} (h : m.Bounded)
    (hversion : credential.version = some v) :
    (m.loadInstalled path credential t).2.1.getCurrentCredential = some credential := by
  have hkey : cacheKey credential.version t = v := by simp [cacheKey, hversion]
  unfold getCurrentCredential
  rw [loadInstalled_currentVersion, loadInstalled_cache, hversion]
  show OrderedDict.get? _ v = some credential
  rw [← hversion, hkey, OrderedDict.get?_evictOver, OrderedDict.get?_set_self]
  exact if_neg (OrderedDict.not_mem_overflow_set_self (by decide) h v credential)

/-- Without a version the current credential is the last of the cache: the one
installed under the second's key, unless that key was there before the last. -/
theorem loadInstalled_getCurrent_of_no_version {path : String} {m : CredentialManager}
    {credential : Credential} {t : LoadReadings} (hversion : credential.version = none) :
    (m.loadInstalled path credential t).2.1.getCurrentCredential =
      if truncate t.key ∈ m.cache then
        m.cache.last?.map (fun e => if e.1 = truncate t.key then credential else e.2)
      else some credential := by
  have hkey : cacheKey credential.version t = truncate t.key := by simp [cacheKey, hversion]
  unfold getCurrentCredential
  rw [loadInstalled_currentVersion, loadInstalled_cache, hversion]
  show (OrderedDict.last? _).map Prod.snd = _
  rw [← hversion, hkey, OrderedDict.last?_evictOver (by decide)]
  split
  · rename_i hin
    rw [OrderedDict.last?_set_of_mem credential hin, Option.map_map]
    congr 1
    funext e
    show (if e.1 = truncate t.key then (truncate t.key, credential) else e).2 = _
    split <;> rfl
  · rename_i hout
    rw [OrderedDict.last?_set_of_not_mem credential hout]
    rfl

/-- The current credential carries this key and this secret. -/
def Carries (m : CredentialManager) (pair : Json × Json) : Prop :=
  ∃ c, m.getCurrentCredential = some c ∧ (c.apiKey, c.apiSecret) = pair

/-- The current credential has the `api_key` and the `api_secret` of a payload. -/
def Holds (m : CredentialManager) (secret : SecretData) : Prop :=
  ∃ c, m.getCurrentCredential = some c ∧
    jsonGet secret.data "api_key" (.str "") = .ok c.apiKey ∧
    jsonGet secret.data "api_secret" (.str "") = .ok c.apiSecret

/-- The key pair is what the payload says. -/
theorem jsonGet_of_keyPair? {secret : SecretData} {pair : Json × Json}
    (h : secret.keyPair? = some pair) :
    jsonGet secret.data "api_key" (.str "") = .ok pair.1 ∧
      jsonGet secret.data "api_secret" (.str "") = .ok pair.2 := by
  unfold SecretData.keyPair? at h
  split at h
  · rename_i apiKey apiSecret hkey hsecret
    split at h
    · rw [Option.some.injEq] at h
      rw [hkey, hsecret, ← h]
      exact ⟨rfl, rfl⟩
    · cases h
  · cases h

theorem holds_iff_carries {m : CredentialManager} {secret : SecretData} {pair : Json × Json}
    (h : secret.keyPair? = some pair) : m.Holds secret ↔ m.Carries pair := by
  have hboth := jsonGet_of_keyPair? h
  unfold Holds Carries
  rw [hboth.1, hboth.2]
  constructor
  · intro hm
    obtain ⟨c, hc, hkey, hsecret⟩ := hm
    rw [Except.ok.injEq] at hkey hsecret
    exact ⟨c, hc, by rw [← hkey, ← hsecret]⟩
  · intro hm
    obtain ⟨c, hc, hpair⟩ := hm
    exact ⟨c, hc, by rw [← hpair], by rw [← hpair]⟩

/-- After a load of a versioned secret the manager holds what it held before,
or the secret just read as the current credential. -/
theorem afterLoad_current (path : String) {m : CredentialManager} {l : Load} (h : m.Bounded)
    (hversion : ∀ secret, l.read = .ok secret → secret.version ≠ none) :
    ((afterLoad path m l).getCurrentCredential = m.getCurrentCredential ∧
        (afterLoad path m l).getFallbackCredential = m.getFallbackCredential) ∨
      ∃ secret c, l.read = .ok secret ∧
        (afterLoad path m l).getCurrentCredential = some c ∧
          secret.keyPair? = some (c.apiKey, c.apiSecret) := by
  obtain ⟨read, t⟩ := l
  unfold afterLoad
  dsimp only at hversion ⊢
  have hspec := loadCredentials_spec path m read t
  generalize m.loadCredentials path read t = r at hspec ⊢
  cases hspec with
  | failed => exact Or.inl ⟨rfl, rfl⟩
  | unchanged secret t =>
      exact Or.inl ⟨updateAgeMetric_getCurrentCredential m t.age,
        updateAgeMetric_getFallbackCredential m t.age⟩
  | installed secret t credential hpair hchanged httl hsame =>
      obtain ⟨v, hv⟩ := Option.ne_none_iff_exists'.mp (hversion secret rfl)
      exact Or.inr ⟨secret, credential, rfl,
        loadInstalled_getCurrent_of_version path t h (hsame.trans hv), hpair⟩

/-- The credential under the current version carries that version. -/
structure Labelled (m : CredentialManager) : Prop where
  bounded : m.Bounded
  version : ∀ v c, m.currentVersion = some v → m.getCurrentCredential = some c →
    c.version = some v

theorem init_labelled : init.Labelled where
  bounded := init_bounded
  version := fun v c h => by cases h

theorem afterLoad_labelled {path : String} {m : CredentialManager} {l : Load} (h : m.Labelled) :
    (afterLoad path m l).Labelled where
  bounded := afterLoad_bounded h.bounded
  version := by
    obtain ⟨read, t⟩ := l
    unfold afterLoad
    dsimp only
    have hspec := loadCredentials_spec path m read t
    generalize m.loadCredentials path read t = r at hspec ⊢
    cases hspec with
    | failed => exact h.version
    | unchanged secret t =>
        dsimp only
        rw [updateAgeMetric_getCurrentCredential, updateAgeMetric_currentVersion]
        exact h.version
    | installed secret t credential =>
        intro v c hversion hc
        rw [loadInstalled_currentVersion] at hversion
        rw [loadInstalled_getCurrent_of_version path t h.bounded hversion, Option.some.injEq] at hc
        rw [← hc]
        exact hversion

/-! ## Keys

Which API keys a manager has, and where a load takes them from. -/

/-- The payload has this API key. -/
def HasKey (secret : SecretData) (key : String) : Prop :=
  jsonGet secret.data "api_key" (.str "") = .ok (.str key)

def CurrentKey (key : String) (m : CredentialManager) : Prop :=
  ∃ c, m.getCurrentCredential = some c ∧ c.apiKey = .str key

/-- The key of the current or of the fallback credential. -/
def HoldsKey (key : String) (m : CredentialManager) : Prop :=
  ∃ c, (m.getCurrentCredential = some c ∨ m.getFallbackCredential = some c) ∧ c.apiKey = .str key

def CachesKey (key : String) (m : CredentialManager) : Prop :=
  ∃ c ∈ m.cache.values, c.apiKey = .str key

theorem CurrentKey.holdsKey {key : String} {m : CredentialManager} (h : m.CurrentKey key) :
    m.HoldsKey key := by
  obtain ⟨c, hc, hkey⟩ := h
  exact ⟨c, Or.inl hc, hkey⟩

theorem getCurrentCredential_mem {m : CredentialManager} {c : Credential}
    (h : m.getCurrentCredential = some c) : c ∈ m.cache.values := by
  unfold getCurrentCredential at h
  split at h
  · exact OrderedDict.mem_values_iff_get?.mpr ⟨_, h⟩
  · obtain ⟨e, he, hec⟩ := Option.map_eq_some_iff.mp h
    rw [← hec]
    exact OrderedDict.mem_values_iff_get?.mpr ⟨e.1, OrderedDict.get?_last? he⟩

theorem getFallbackCredential_mem {m : CredentialManager} {c : Credential}
    (h : m.getFallbackCredential = some c) : c ∈ m.cache.values := by
  unfold getFallbackCredential at h
  split at h
  · exact OrderedDict.mem_values_iff_get?.mpr ⟨_, h⟩
  · exact List.mem_reverse.mp (List.mem_of_getElem? h)

/-- What is held is cached. -/
theorem HoldsKey.cachesKey {key : String} {m : CredentialManager} (h : m.HoldsKey key) :
    m.CachesKey key := by
  obtain ⟨c, hc, hkey⟩ := h
  rcases hc with hcurrent | hfallback
  · exact ⟨c, getCurrentCredential_mem hcurrent, hkey⟩
  · exact ⟨c, getFallbackCredential_mem hfallback, hkey⟩

/-- A load of a versioned secret leaves the held keys, or makes the secret's
key the current one. -/
theorem afterLoad_key (path : String) {key : String} {m : CredentialManager} {l : Load}
    (h : m.Bounded)
    (hsecret : ∀ secret, l.read = .ok secret → secret.version ≠ none ∧ HasKey secret key) :
    ((afterLoad path m l).getCurrentCredential = m.getCurrentCredential ∧
        (afterLoad path m l).getFallbackCredential = m.getFallbackCredential) ∨
      (afterLoad path m l).CurrentKey key := by
  rcases afterLoad_current path h (fun secret hread => (hsecret secret hread).1) with
    hsame | hnew
  · exact Or.inl hsame
  · obtain ⟨secret, c, hread, hc, hpair⟩ := hnew
    have hkey := (jsonGet_of_keyPair? hpair).1
    rw [(hsecret secret hread).2, Except.ok.injEq] at hkey
    exact Or.inr ⟨c, hc, hkey.symm⟩

theorem afterLoad_holdsKey (path : String) {key key' : String} {m : CredentialManager} {l : Load}
    (h : m.Bounded)
    (hsecret : ∀ secret, l.read = .ok secret → secret.version ≠ none ∧ HasKey secret key)
    (hholds : m.HoldsKey key') :
    (afterLoad path m l).HoldsKey key' ∨ (afterLoad path m l).HoldsKey key := by
  rcases afterLoad_key path h hsecret with hsame | hnew
  · unfold HoldsKey
    rw [hsame.1, hsame.2]
    exact Or.inl hholds
  · exact Or.inr hnew.holdsKey

theorem afterLoad_currentKey (path : String) {key : String} {m : CredentialManager} {l : Load}
    (h : m.Bounded)
    (hsecret : ∀ secret, l.read = .ok secret → secret.version ≠ none ∧ HasKey secret key)
    (hcurrent : m.CurrentKey key) : (afterLoad path m l).CurrentKey key := by
  rcases afterLoad_key path h hsecret with hsame | hnew
  · unfold CurrentKey
    rw [hsame.1]
    exact hcurrent
  · exact hnew

/-- A complete secret of another version than the current one is loaded. -/
theorem afterLoad_of_complete (path : String) {key : String} {m : CredentialManager}
    {secret : SecretData} (t : LoadReadings) (h : m.Bounded) {pair : Json × Json} {ttl : Option Int}
    (hpair : secret.keyPair? = some pair) (httl : secret.ttl? = .ok ttl)
    (hkey : pair.1 = .str key) (hversion : secret.version ≠ none)
    (hchanged : secret.version ≠ m.currentVersion) :
    (afterLoad path m ⟨.ok secret, t⟩).CurrentKey key := by
  unfold afterLoad
  dsimp only
  have hspec := loadCredentials_spec path m (.ok secret) t
  generalize hread : (Except.ok secret : VaultRead) = read at hspec
  generalize m.loadCredentials path read t = r at hspec ⊢
  cases hspec with
  | failed read t error outputs hrejected =>
      obtain ⟨-, exc, herror⟩ := hrejected secret hread.symm pair hpair
      rw [httl] at herror
      cases herror
  | unchanged secret' t pair' outputs hpair' hsame =>
      rw [Except.ok.injEq] at hread
      rw [← hread] at hsame
      exact absurd hsame hchanged
  | installed secret' t credential hpair' hchanged' httl' hsame =>
      rw [Except.ok.injEq] at hread
      rw [← hread] at hpair' hsame
      obtain ⟨v, hv⟩ := Option.ne_none_iff_exists'.mp hversion
      rw [hpair, Option.some.injEq] at hpair'
      refine ⟨credential, loadInstalled_getCurrent_of_version path t h (hsame.trans hv), ?_⟩
      rw [← hkey, hpair']

/-- A key that a load adds to the cache is that of a secret of another version. -/
theorem afterLoad_cachesKey {path key : String} {m : CredentialManager} {l : Load}
    (h : (afterLoad path m l).CachesKey key) :
    m.CachesKey key ∨
      ∃ secret, l.read = .ok secret ∧ HasKey secret key ∧ secret.version ≠ m.currentVersion := by
  obtain ⟨read, t⟩ := l
  unfold afterLoad at h
  dsimp only at h ⊢
  have hspec := loadCredentials_spec path m read t
  generalize m.loadCredentials path read t = r at hspec h
  cases hspec with
  | failed => exact Or.inl h
  | unchanged =>
      unfold CachesKey at h
      rw [updateAgeMetric_cache] at h
      exact Or.inl h
  | installed secret t credential hpair hchanged =>
      obtain ⟨c, hc, hkey⟩ := h
      rw [loadInstalled_cache] at hc
      rcases OrderedDict.mem_values_set (OrderedDict.mem_values_evictOver hc) with hnew | hold
      · have hread := (jsonGet_of_keyPair? hpair).1
        rw [hnew] at hkey
        exact Or.inr ⟨secret, rfl, hread.trans (congrArg Except.ok hkey), hchanged⟩
      · exact Or.inl ⟨c, hold, hkey⟩

/-! ## Loads that report success -/

/-- If the load returns `True`, the manager then holds the secret just read. -/
def TruthfulLoad (path : String) (m : CredentialManager) (l : Load) : Prop :=
  ∀ secret, l.read = .ok secret → (m.loadCredentials path l.read l.readings).1 = true →
    (afterLoad path m l).Holds secret

/-- A secret of the current version repeats the current key and secret; a
version-less secret after a versioned one is not cached in the place of an
older entry, unless the last entry has its key and secret. -/
def Repeats (m : CredentialManager) (l : Load) : Prop :=
  ∀ secret pair, l.read = .ok secret → secret.keyPair? = some pair →
    (secret.version = m.currentVersion → m.Carries pair) ∧
      (secret.version = none → m.currentVersion ≠ none → (∃ ttl, secret.ttl? = .ok ttl) →
        truncate l.readings.key ∈ m.cache → ∀ last, m.cache.last? = some last →
          last.1 = truncate l.readings.key ∨ (last.2.apiKey, last.2.apiSecret) = pair)

private theorem carries_loadInstalled_iff {path : String} {m : CredentialManager}
    {credential : Credential} {t : LoadReadings} (hversion : credential.version = none) :
    (m.loadInstalled path credential t).2.1.Carries (credential.apiKey, credential.apiSecret) ↔
      (truncate t.key ∈ m.cache → ∀ last, m.cache.last? = some last →
        last.1 = truncate t.key ∨
          (last.2.apiKey, last.2.apiSecret) = (credential.apiKey, credential.apiSecret)) := by
  unfold Carries
  rw [loadInstalled_getCurrent_of_no_version hversion]
  by_cases hin : truncate t.key ∈ m.cache
  · obtain ⟨last, hlast⟩ : ∃ last, m.cache.last? = some last := by
      cases hlast : m.cache.last? with
      | some last => exact ⟨last, rfl⟩
      | none =>
          have hnil : m.cache.entries = [] := List.getLast?_eq_none_iff.mp hlast
          rw [OrderedDict.mem_def, OrderedDict.keys, hnil] at hin
          cases hin
    rw [if_pos hin, hlast]
    by_cases hkey : last.1 = truncate t.key
    · simp [hkey]
    · simp [hkey, hin]
  · rw [if_neg hin]
    exact ⟨fun _ h => absurd h hin, fun _ => ⟨credential, rfl, rfl⟩⟩

/-- What is asked of a read that gave one secret. -/
private theorem forall_ok_iff {secret : SecretData} {P : SecretData → Prop} :
    (∀ secret', (Except.ok secret : VaultRead) = .ok secret' → true = true → P secret') ↔
      P secret := by
  constructor
  · exact fun h => h secret rfl rfl
  · intro h secret' hread _
    rw [Except.ok.injEq] at hread
    rwa [← hread]

private theorem repeats_ok_iff {m : CredentialManager} {secret : SecretData} {t : LoadReadings}
    {pair : Json × Json} (hpair : secret.keyPair? = some pair) :
    m.Repeats ⟨.ok secret, t⟩ ↔
      (secret.version = m.currentVersion → m.Carries pair) ∧
        (secret.version = none → m.currentVersion ≠ none → (∃ ttl, secret.ttl? = .ok ttl) →
          truncate t.key ∈ m.cache → ∀ last, m.cache.last? = some last →
            last.1 = truncate t.key ∨ (last.2.apiKey, last.2.apiSecret) = pair) := by
  constructor
  · exact fun h => h secret pair rfl hpair
  · intro h secret' pair' hread hpair'
    rw [Except.ok.injEq] at hread
    rw [← hread, hpair, Option.some.injEq] at hpair'
    rw [← hread, ← hpair']
    exact h

/-- The age metric is not part of what the manager carries. -/
private theorem updateAgeMetric_carries {m : CredentialManager} {now : Rat} {pair : Json × Json} :
    (m.updateAgeMetric now).Carries pair ↔ m.Carries pair := by
  unfold Carries
  rw [updateAgeMetric_getCurrentCredential]

private theorem truthfulLoad_iff {path : String} {m : CredentialManager} {l : Load}
    (h : m.Bounded) : TruthfulLoad path m l ↔ m.Repeats l := by
  obtain ⟨read, t⟩ := l
  unfold TruthfulLoad afterLoad
  dsimp only
  have hspec := loadCredentials_spec path m read t
  generalize m.loadCredentials path read t = r at hspec ⊢
  cases hspec with
  | failed read t error outputs hrejected =>
      constructor
      · intro _ secret pair hread hpair
        have hno := hrejected secret hread pair hpair
        refine ⟨fun hsame => absurd hsame hno.1, ?_⟩
        intro _ _ httl
        obtain ⟨exc, herror⟩ := hno.2
        obtain ⟨ttl, hok⟩ := httl
        rw [herror] at hok
        cases hok
      · intro _ secret _ hresult
        cases hresult
  | unchanged secret t pair outputs hpair hversion =>
      rw [repeats_ok_iff hpair]
      refine forall_ok_iff.trans ?_
      rw [holds_iff_carries hpair, updateAgeMetric_carries]
      constructor
      · intro hcarries
        refine ⟨fun _ => hcarries, fun hnone hsome => ?_⟩
        exact absurd (hversion.symm.trans hnone) hsome
      · exact fun hrepeats => hrepeats.1 hversion
  | installed secret t credential hpair hchanged httl hversion hoid =>
      rw [repeats_ok_iff hpair]
      cases hv : secret.version with
      | some v =>
          have hcurrent := loadInstalled_getCurrent_of_version path t h (hversion.trans hv)
          refine iff_of_true ?_ ⟨fun hsame => ?_, fun hnone => ?_⟩
          · intro secret' hread _
            rw [← Except.ok.inj hread]
            exact (holds_iff_carries hpair).mpr ⟨credential, hcurrent, rfl⟩
          · exact absurd (hv.trans hsame) hchanged
          · cases hnone
      | none =>
          have hresult : (m.loadInstalled path credential t).1 = true :=
            (m.loadInstalled_result path credential t).mpr (by
              rw [hversion.trans hv]
              exact fun v hv => by cases hv)
          rw [hresult]
          refine forall_ok_iff.trans ?_
          rw [holds_iff_carries hpair]
          have hsome : m.currentVersion ≠ none := by
            rw [← hv]
            exact hchanged.symm
          rw [carries_loadInstalled_iff (hversion.trans hv)]
          constructor
          · intro hlast
            exact ⟨fun hsame => absurd hsame.symm hsome, fun _ _ _ => hlast⟩
          · exact fun hrepeats => hrepeats.2 rfl hsome ⟨credential.ttl, httl⟩

/-- Every load of a run that returns `True` leaves the secret just read as the
current credential, exactly when in the run a secret of the current version
repeats the current key and secret and no version-less secret is cached in the
place of an older entry. -/
theorem truthful_iff (path : String) (es : List Load) :
    Along (step path) (TruthfulLoad path) init es ↔ Along (step path) Repeats init es :=
  along_congr (fun _ _ _ _ h hs => step_bounded h hs) (fun _ _ h => truthfulLoad_iff h)
    init_bounded

/-- The secret is recreated and starts at version 1 again. -/
def recreatedRun : List Load :=
  [⟨.ok (sampleSecret 1 "key-old" "secret-old"), .at 0⟩,
    ⟨.ok (sampleSecret 1 "key-new" "secret-new"), .at 30⟩]

/-- The second load returns `True` and keeps the old credential. -/
theorem not_truthful_recreated :
    ¬ Along (step ({} : Settings).vaultSecretPath) (TruthfulLoad ({} : Settings).vaultSecretPath)
      init recreatedRun := by
  intro h
  have hfirst : ∃ m outputs,
      run (step ({} : Settings).vaultSecretPath) init (recreatedRun.take 1) = some (m, outputs) ∧
        (∀ l ∈ recreatedRun.drop 1,
          (m.loadCredentials ({} : Settings).vaultSecretPath l.read l.readings).1 = true ∧
            (afterLoad ({} : Settings).vaultSecretPath m l).getCurrentCredential.any
              (fun c => isKey "key-new" c.apiKey) = false) :=
    exists_run (by decide +kernel)
  obtain ⟨m, outputs, hrun, hload⟩ := hfirst
  obtain ⟨hresult, hcurrent⟩ := hload _ List.mem_cons_self
  have hsecond := along_iff_forall_split.mp h _ _ [] m outputs rfl hrun
    (sampleSecret 1 "key-new" "secret-new") rfl hresult
  obtain ⟨c, hc, hkey, -⟩ := hsecond
  rw [hc, Option.any_some, ← Except.ok.inj hkey] at hcurrent
  cases hcurrent

end CredentialManager

end PaymentConnector
