import PaymentConnector.Audit
import PaymentConnector.Library.OrderedDict

/-!
# The credential manager

`CredentialManager` keeps the credentials read from Vault in a bounded,
insertion-ordered cache keyed by secret version, and two version pointers:
the current one and the one before it.  A load either installs a credential,
leaves everything as it is because the version is the current one, or fails.

Two conversions of an integer to a float can raise.  The subtraction in
`status` converts the ttl, so the status of a credential can be an exception.
The version gauge converts the version, after the pointers and the cache have
changed: a load of a version that is no float returns `False` and has installed
the credential all the same.

Every reading of `time.time()` inside one call is an input of that call
(`LoadReadings`).  Object identity, which the gateway client compares with
`is not`, is the field `oid`: each constructed credential gets a fresh one.
-/

namespace PaymentConnector

open Library

/-! ## Secrets and credentials -/

/-- What a Vault read returns. -/
structure SecretData where
  data : Json
  version : Option Int
  createdTime : Option String := none

/-- Health status of a credential. -/
inductive CredentialStatus
  | valid
  | expiringSoon
  | expired
  | error
  deriving DecidableEq

/-- A cached credential. -/
structure Credential where
  oid : Nat
  apiKey : Json
  apiSecret : Json
  version : Option Int
  loadedAt : Rat
  createdTime : Option String
  ttl : Option Int

def maxCacheSize : Nat := 5

def expirySoonThresholdSeconds : Rat := 3600

namespace Credential

/-- `age_seconds` at clock reading `now`. -/
def ageSeconds (c : Credential) (now : Rat) : Rat := now - c.loadedAt

/-- `status` at clock reading `now`; the subtraction takes the ttl as a float. -/
def status (c : Credential) (now : Rat) : Except PyExc CredentialStatus :=
  match c.ttl with
  | none => .ok .valid
  | some ttl =>
      match pyFloat ttl with
      | .error exc => .error exc
      | .ok ttl =>
          let remaining := (ttl : Rat) - c.ageSeconds now
          if remaining ≤ 0 then .ok .expired
          else if remaining ≤ expirySoonThresholdSeconds then .ok .expiringSoon
          else .ok .valid

/-- The ttl, if there is one, is a number that can be a float. -/
def Timed (c : Credential) : Prop := ∀ ttl ∈ c.ttl, ttl.natAbs < floatBound

instance (c : Credential) : Decidable c.Timed :=
  inferInstanceAs (Decidable (∀ ttl ∈ c.ttl, ttl.natAbs < floatBound))

/-- The lifetime that `status` compares with the age: the ttl as a float. -/
def Lives (c : Credential) (seconds : Int) : Prop := ∃ ttl ∈ c.ttl, pyFloat ttl = .ok seconds

theorem Lives.timed {c : Credential} {seconds : Int} (h : c.Lives seconds) : c.Timed := by
  obtain ⟨ttl, httl, hfloat⟩ := h
  intro ttl' httl'
  rw [Option.mem_unique httl' httl]
  exact (pyFloat_ok_iff.mp hfloat).1

theorem Lives.unique {c : Credential} {seconds seconds' : Int} (h : c.Lives seconds)
    (h' : c.Lives seconds') : seconds = seconds' := by
  obtain ⟨ttl, httl, hfloat⟩ := h
  obtain ⟨ttl', httl', hfloat'⟩ := h'
  rw [Option.mem_unique httl httl', hfloat'] at hfloat
  exact (Except.ok.inj hfloat).symm

/-- A credential is expired exactly when it has a lifetime that its age reached. -/
theorem status_eq_expired_iff (c : Credential) (now : Rat) :
    c.status now = .ok .expired ↔
      ∃ seconds, c.Lives seconds ∧ (seconds : Rat) ≤ c.ageSeconds now := by
  unfold status Lives
  cases httl : c.ttl with
  | none => simp
  | some ttl =>
      simp only [Option.mem_def, Option.some.injEq, exists_eq_left']
      cases hfloat : pyFloat ttl with
      | error exc => simp
      | ok seconds =>
          simp only [Except.ok.injEq, exists_eq_left']
          by_cases h : (seconds : Rat) - c.ageSeconds now ≤ 0
          · simpa [h] using sub_nonpos.mp h
          · have hlt : ¬ (seconds : Rat) ≤ c.ageSeconds now := fun h' => h (sub_nonpos.mpr h')
            simp only [h, if_false, hlt, iff_false]
            split <;> simp

theorem status_ne_error (c : Credential) (now : Rat) : c.status now ≠ .ok .error := by
  unfold status
  split
  · simp
  · split
    · simp
    · dsimp only
      split
      · simp
      · split <;> simp

/-- The status can be read exactly when the ttl can be a float. -/
theorem status_ok_iff (c : Credential) (now : Rat) :
    (∃ status, c.status now = .ok status) ↔ c.Timed := by
  unfold status Timed
  cases c.ttl with
  | none => simp
  | some ttl =>
      by_cases hfits : ttl.natAbs < floatBound
      · simp only [pyFloat_of_lt hfits]
        refine ⟨fun _ => by simpa using hfits, fun _ => ?_⟩
        split
        · exact ⟨_, rfl⟩
        · split <;> exact ⟨_, rfl⟩
      · simp [pyFloat_of_le (Nat.le_of_not_lt hfits), hfits]

theorem status_error_iff (c : Credential) (now : Rat) :
    (∃ exc, c.status now = .error exc) ↔ ¬ c.Timed := by
  rw [← c.status_ok_iff now]
  cases c.status now <;> simp

end Credential

/-! ## The manager -/

/-- The state of a `CredentialManager`, its metrics included. -/
structure CredentialManager where
  cache : OrderedDict Int Credential
  currentVersion : Option Int
  previousVersion : Option Int
  lastError : Option String
  credentialVersion : Int
  credentialAgeSeconds : Rat
  credentialRotationTotal : Nat
  credentialFetchErrorsTotal : Nat
  nextOid : Nat

/-- The readings of `time.time()` in one load, in code order: the credential's
`loaded_at`, the cache key of a version-less secret, the age metric. -/
structure LoadReadings where
  loaded : Rat
  key : Rat
  age : Rat

/-- The outcome of `read_secret`: a secret, or an exception given by its text. -/
abbrev VaultRead := Except String SecretData

namespace CredentialManager

/-- `__init__`. -/
def init : CredentialManager where
  cache := .empty
  currentVersion := none
  previousVersion := none
  lastError := none
  credentialVersion := 0
  credentialAgeSeconds := 0
  credentialRotationTotal := 0
  credentialFetchErrorsTotal := 0
  nextOid := 0

/-- `get_current_credential`. -/
def getCurrentCredential (m : CredentialManager) : Option Credential :=
  match m.currentVersion with
  | some v => m.cache.get? v
  | none => m.cache.last?.map Prod.snd

/-- `get_fallback_credential`: without a previous version, the last but one
value of the cache. -/
def getFallbackCredential (m : CredentialManager) : Option Credential :=
  match m.previousVersion with
  | some v => m.cache.get? v
  | none => m.cache.values.reverse[1]?

/-- `credential_status` at clock reading `now`. -/
def credentialStatus (m : CredentialManager) (now : Rat) : Except PyExc CredentialStatus :=
  match m.getCurrentCredential with
  | none => .ok .error
  | some c => c.status now

/-- `has_valid_credentials` at clock reading `now`. -/
def hasValidCredentials (m : CredentialManager) (now : Rat) : Except PyExc Bool :=
  match m.credentialStatus now with
  | .error exc => .error exc
  | .ok status => .ok (status = .valid || status = .expiringSoon)

/-- `_update_age_metric` at clock reading `now`. -/
def updateAgeMetric (m : CredentialManager) (now : Rat) : CredentialManager :=
  match m.getCurrentCredential with
  | none => m
  | some c => { m with credentialAgeSeconds := c.ageSeconds now }

/-- `int(ttl) if ttl is not None else None`. -/
def parseTtl : Json → Except PyExc (Option Int)
  | .null => .ok none
  | ttl =>
      match pyInt ttl with
      | .error exc => .error exc
      | .ok n => .ok (some n)

/-- The cache key of a secret: its version, or the current second. -/
def cacheKey (version : Option Int) (t : LoadReadings) : Int :=
  match version with
  | some v => v
  | none => truncate t.key

/-- The version pointers and the cache once a credential is accepted. -/
def remember (m : CredentialManager) (credential : Credential) (t : LoadReadings) :
    CredentialManager × List Output :=
  let cache := m.cache.set (cacheKey credential.version t) credential
  ({ m with
      previousVersion := m.currentVersion
      currentVersion := credential.version
      cache := OrderedDict.evictOver maxCacheSize cache
      nextOid := m.nextOid + 1 },
    (OrderedDict.overflow maxCacheSize cache).map
      (fun v => Output.log (.credentialCacheEvicted v)))

/-- `credential_version.set(version)`, if there is a version. -/
def setVersionGauge (m : CredentialManager) : Option Int → Except PyExc CredentialManager
  | none => .ok m
  | some version =>
      match pyFloat version with
      | .error exc => .error exc
      | .ok value => .ok { m with credentialVersion := value }

/-- The end of `_process_secret`, from the age metric on. -/
def announce (path : String) (oldVersion version : Option Int) (m : CredentialManager)
    (now : Rat) : CredentialManager × List Output :=
  let m : CredentialManager := { m.updateAgeMetric now with lastError := none }
  if oldVersion ≠ none ∧ oldVersion ≠ version then
    ({ m with credentialRotationTotal := m.credentialRotationTotal + 1 },
      [.audit (auditRotationEvent path oldVersion version "success"),
        .log (.credentialRotated oldVersion version)])
  else
    (m, [.log (.credentialLoaded version)])

/-- The end of `_process_secret`, from the version pointers on.  An exception of
the gauge finds the pointers and the cache changed. -/
def install (path : String) (m : CredentialManager) (credential : Credential)
    (t : LoadReadings) : CredentialManager × List Output × Except PyExc Bool :=
  let oldVersion := m.currentVersion
  let (m, evictions) := m.remember credential t
  match m.setVersionGauge credential.version with
  | .error exc => (m, evictions, .error exc)
  | .ok m =>
      let (m, outputs) := m.announce path oldVersion credential.version t.age
      (m, evictions ++ outputs, .ok true)

/-- What `_process_secret` finds in a secret. -/
inductive Finding
  | missingFields
  | unchanged
  | accepted (credential : Credential)

/-- `_process_secret` up to its first change of the manager. -/
def examine (m : CredentialManager) (secret : SecretData) (t : LoadReadings) :
    Except PyExc Finding := do
  let apiKey ← jsonGet secret.data "api_key" (.str "")
  let apiSecret ← jsonGet secret.data "api_secret" (.str "")
  let ttl ← jsonGet secret.data "ttl" .null
  if !apiKey.truthy || !apiSecret.truthy then
    return .missingFields
  if secret.version = m.currentVersion then
    return .unchanged
  let ttl ← parseTtl ttl
  return .accepted
    { oid := m.nextOid
      apiKey := apiKey
      apiSecret := apiSecret
      version := secret.version
      loadedAt := t.loaded
      createdTime := secret.createdTime
      ttl := ttl }

/-- `_process_secret`: the manager and what was written when it returned or raised. -/
def processSecret (path : String) (m : CredentialManager) (secret : SecretData)
    (t : LoadReadings) : CredentialManager × List Output × Except PyExc Bool :=
  match m.examine secret t with
  | .error exc => (m, [], .error exc)
  | .ok .missingFields =>
      ({ m with
          lastError := some "Missing api_key or api_secret in Vault data"
          credentialFetchErrorsTotal := m.credentialFetchErrorsTotal + 1 },
        [.log (.credentialMissingFields secret.version)], .ok false)
  | .ok .unchanged =>
      (m.updateAgeMetric t.age, [.log (.credentialUnchanged secret.version)], .ok true)
  | .ok (.accepted credential) => m.install path credential t

/-- The `except Exception` branch of `load_credentials`. -/
def loadFailed (path : String) (m : CredentialManager) (error : String) :
    Bool × CredentialManager × List Output :=
  (false,
    { m with
      lastError := some error
      credentialFetchErrorsTotal := m.credentialFetchErrorsTotal + 1 },
    [.log (.credentialLoadFailed error), .audit (auditCredentialAccess path none "failure")])

/-- The `try` of `load_credentials` around `_process_secret`. -/
def rescue (path : String) :
    CredentialManager × List Output × Except PyExc Bool → Bool × CredentialManager × List Output
  | (m, outputs, .ok result) => (result, m, outputs)
  | (m, outputs, .error exc) =>
      let (result, m, failures) := loadFailed path m exc.str
      (result, m, outputs ++ failures)

/-- `load_credentials`, given the outcome of the Vault read. -/
def loadCredentials (path : String) (m : CredentialManager) (read : VaultRead)
    (t : LoadReadings) : Bool × CredentialManager × List Output :=
  match read with
  | .error text => loadFailed path m text
  | .ok secret => rescue path (processSecret path m secret t)

/-- `load_credentials` where the secret is installed. -/
def loadInstalled (path : String) (m : CredentialManager) (credential : Credential)
    (t : LoadReadings) : Bool × CredentialManager × List Output :=
  rescue path (m.install path credential t)

/-! ## What the manager says -/

/-- The credential check passes exactly on a current credential whose status can
be read and is not expired. -/
theorem hasValidCredentials_iff (m : CredentialManager) (now : Rat) :
    m.hasValidCredentials now = .ok true ↔
      ∃ c, m.getCurrentCredential = some c ∧ c.Timed ∧ c.status now ≠ .ok .expired := by
  unfold hasValidCredentials credentialStatus
  cases hc : m.getCurrentCredential with
  | none => simp
  | some c =>
      have herr := c.status_ne_error now
      have htimed := c.status_ok_iff now
      simp only [Option.some.injEq, exists_eq_left', ← htimed]
      cases hs : c.status now with
      | error exc => simp
      | ok status =>
          cases status with
          | error => exact absurd hs herr
          | valid => simp
          | expiringSoon => simp
          | expired => simp

/-- The credential check raises exactly on a current credential whose ttl cannot
be a float. -/
theorem hasValidCredentials_error_iff (m : CredentialManager) (now : Rat) :
    (∃ exc, m.hasValidCredentials now = .error exc) ↔
      ∃ c, m.getCurrentCredential = some c ∧ ¬ c.Timed := by
  unfold hasValidCredentials credentialStatus
  cases hc : m.getCurrentCredential with
  | none => simp
  | some c =>
      simp only [Option.some.injEq, exists_eq_left', ← c.status_error_iff now]
      cases c.status now <;> simp

/-- Valid credentials are credentials. -/
theorem exists_current_of_valid {m : CredentialManager} {now : Rat}
    (h : m.hasValidCredentials now = .ok true) : ∃ c, m.getCurrentCredential = some c := by
  obtain ⟨c, hc, -⟩ := (m.hasValidCredentials_iff now).mp h
  exact ⟨c, hc⟩

/-! ## What a load does -/

section Fields

variable (m : CredentialManager) (now : Rat)

@[simp] theorem updateAgeMetric_cache : (m.updateAgeMetric now).cache = m.cache := by
  unfold updateAgeMetric
  split <;> rfl

@[simp] theorem updateAgeMetric_currentVersion :
    (m.updateAgeMetric now).currentVersion = m.currentVersion := by
  unfold updateAgeMetric
  split <;> rfl

@[simp] theorem updateAgeMetric_previousVersion :
    (m.updateAgeMetric now).previousVersion = m.previousVersion := by
  unfold updateAgeMetric
  split <;> rfl

end Fields

/-- A version that the gauge can hold, or none. -/
def Gaugeable (version : Option Int) : Prop := ∀ v ∈ version, v.natAbs < floatBound

instance (version : Option Int) : Decidable (Gaugeable version) :=
  inferInstanceAs (Decidable (∀ v ∈ version, v.natAbs < floatBound))

/-- What the gauge shows after it was set to a version that it can hold. -/
def gaugeValue (m : CredentialManager) (version : Option Int) : Int :=
  (version.map roundToFloat).getD m.credentialVersion

theorem setVersionGauge_of_gaugeable {m : CredentialManager} {version : Option Int}
    (h : Gaugeable version) :
    m.setVersionGauge version = .ok { m with credentialVersion := m.gaugeValue version } := by
  cases version with
  | none => rfl
  | some v => simp [setVersionGauge, pyFloat_of_lt (h v rfl), gaugeValue]

theorem setVersionGauge_of_not_gaugeable {m : CredentialManager} {version : Option Int}
    (h : ¬ Gaugeable version) : ∃ exc, m.setVersionGauge version = .error exc := by
  cases version with
  | none => exact absurd (fun v hv => by cases hv) h
  | some v =>
      have hle : floatBound ≤ v.natAbs := by
        by_contra hlt
        exact h (fun v' hv' => by cases hv'; omega)
      exact ⟨_, by simp only [setVersionGauge, pyFloat_of_le hle]; rfl⟩

section Install

variable (path : String) (m : CredentialManager) (credential : Credential) (t : LoadReadings)

/-- What is installed counts as loaded where the gauge can hold the version. -/
theorem loadInstalled_of_gaugeable (h : Gaugeable credential.version) :
    m.loadInstalled path credential t =
      (true,
        (announce path m.currentVersion credential.version
          { (m.remember credential t).1 with
            credentialVersion := m.gaugeValue credential.version } t.age).1,
        (m.remember credential t).2 ++
          (announce path m.currentVersion credential.version
            { (m.remember credential t).1 with
              credentialVersion := m.gaugeValue credential.version } t.age).2) := by
  unfold loadInstalled install
  simp only [setVersionGauge_of_gaugeable h]
  rfl

/-- Elsewhere the load fails, with the credential installed. -/
theorem loadInstalled_of_not_gaugeable (h : ¬ Gaugeable credential.version) :
    ∃ exc : PyExc, m.loadInstalled path credential t =
      (false,
        { (m.remember credential t).1 with
          lastError := some exc.str
          credentialFetchErrorsTotal := m.credentialFetchErrorsTotal + 1 },
        (m.remember credential t).2 ++
          [.log (.credentialLoadFailed exc.str),
            .audit (auditCredentialAccess path none "failure")]) := by
  obtain ⟨exc, hexc⟩ := setVersionGauge_of_not_gaugeable (m := (m.remember credential t).1) h
  refine ⟨exc, ?_⟩
  unfold loadInstalled install
  simp only [hexc]
  rfl

/-- A load that installs a credential returns `True` exactly when the gauge can
hold its version. -/
theorem loadInstalled_result :
    (m.loadInstalled path credential t).1 = true ↔ Gaugeable credential.version := by
  by_cases h : Gaugeable credential.version
  · simp [m.loadInstalled_of_gaugeable path credential t h, h]
  · obtain ⟨exc, heq⟩ := m.loadInstalled_of_not_gaugeable path credential t h
    simp [heq, h]

private theorem announce_keeps (oldVersion version : Option Int) (now : Rat) :
    (announce path oldVersion version m now).1.cache = m.cache ∧
      (announce path oldVersion version m now).1.currentVersion = m.currentVersion ∧
      (announce path oldVersion version m now).1.previousVersion = m.previousVersion := by
  unfold announce
  dsimp only
  split <;> simp

@[simp] theorem loadInstalled_currentVersion :
    (m.loadInstalled path credential t).2.1.currentVersion = credential.version := by
  by_cases h : Gaugeable credential.version
  · rw [m.loadInstalled_of_gaugeable path credential t h, (announce_keeps path _ _ _ _).2.1]
    rfl
  · obtain ⟨exc, heq⟩ := m.loadInstalled_of_not_gaugeable path credential t h
    rw [heq]
    rfl

@[simp] theorem loadInstalled_previousVersion :
    (m.loadInstalled path credential t).2.1.previousVersion = m.currentVersion := by
  by_cases h : Gaugeable credential.version
  · rw [m.loadInstalled_of_gaugeable path credential t h, (announce_keeps path _ _ _ _).2.2]
    rfl
  · obtain ⟨exc, heq⟩ := m.loadInstalled_of_not_gaugeable path credential t h
    rw [heq]
    rfl

@[simp] theorem loadInstalled_cache :
    (m.loadInstalled path credential t).2.1.cache =
      OrderedDict.evictOver maxCacheSize
        (m.cache.set (cacheKey credential.version t) credential) := by
  by_cases h : Gaugeable credential.version
  · rw [m.loadInstalled_of_gaugeable path credential t h, (announce_keeps path _ _ _ _).1]
    rfl
  · obtain ⟨exc, heq⟩ := m.loadInstalled_of_not_gaugeable path credential t h
    rw [heq]
    rfl

end Install

/-- The current credential is read off the cache and the current version. -/
theorem getCurrentCredential_congr {m m' : CredentialManager} (hcache : m'.cache = m.cache)
    (hversion : m'.currentVersion = m.currentVersion) :
    m'.getCurrentCredential = m.getCurrentCredential := by
  unfold getCurrentCredential
  rw [hcache, hversion]

/-- The fallback credential is read off the cache and the previous version. -/
theorem getFallbackCredential_congr {m m' : CredentialManager} (hcache : m'.cache = m.cache)
    (hversion : m'.previousVersion = m.previousVersion) :
    m'.getFallbackCredential = m.getFallbackCredential := by
  unfold getFallbackCredential
  rw [hcache, hversion]

@[simp] theorem updateAgeMetric_getCurrentCredential (m : CredentialManager) (now : Rat) :
    (m.updateAgeMetric now).getCurrentCredential = m.getCurrentCredential :=
  getCurrentCredential_congr (by simp) (by simp)

@[simp] theorem updateAgeMetric_getFallbackCredential (m : CredentialManager) (now : Rat) :
    (m.updateAgeMetric now).getFallbackCredential = m.getFallbackCredential :=
  getFallbackCredential_congr (by simp) (by simp)

end CredentialManager

/-- The key and the secret of a payload, if both are there and truthy. -/
def SecretData.keyPair? (secret : SecretData) : Option (Json × Json) :=
  match jsonGet secret.data "api_key" (.str ""), jsonGet secret.data "api_secret" (.str "") with
  | .ok apiKey, .ok apiSecret =>
      if apiKey.truthy && apiSecret.truthy then some (apiKey, apiSecret) else none
  | _, _ => none

/-- The ttl of a payload, as an integer. -/
def SecretData.ttl? (secret : SecretData) : Except PyExc (Option Int) :=
  match jsonGet secret.data "ttl" .null with
  | .error exc => .error exc
  | .ok ttl => CredentialManager.parseTtl ttl

namespace CredentialManager

/-- The three things a load can do: fail and keep the credentials, find the
current version unchanged, or install a credential, which is no success where
the gauge cannot hold the version. -/
inductive LoadSpec (path : String) (m : CredentialManager) :
    VaultRead → LoadReadings → Bool × CredentialManager × List Output → Prop
  | failed (read : VaultRead) (t : LoadReadings) (error : String) (outputs : List Output)
      (hrejected : ∀ secret, read = .ok secret → ∀ pair, secret.keyPair? = some pair →
        secret.version ≠ m.currentVersion ∧ ∃ exc, secret.ttl? = .error exc) :
      LoadSpec path m read t
        (false,
          { m with
            lastError := some error
            credentialFetchErrorsTotal := m.credentialFetchErrorsTotal + 1 }, outputs)
  | unchanged (secret : SecretData) (t : LoadReadings) (pair : Json × Json)
      (outputs : List Output)
      (hpair : secret.keyPair? = some pair)
      (hversion : secret.version = m.currentVersion) :
      LoadSpec path m (.ok secret) t (true, m.updateAgeMetric t.age, outputs)
  | installed (secret : SecretData) (t : LoadReadings) (credential : Credential)
      (hpair : secret.keyPair? = some (credential.apiKey, credential.apiSecret))
      (hchanged : secret.version ≠ m.currentVersion)
      (httl : secret.ttl? = .ok credential.ttl)
      (hversion : credential.version = secret.version)
      (hoid : credential.oid = m.nextOid) :
      LoadSpec path m (.ok secret) t (m.loadInstalled path credential t)

/-- What `_process_secret` finds in a secret, and when. -/
inductive ExamineSpec (m : CredentialManager) (secret : SecretData) :
    Except PyExc Finding → Prop
  | raised (exc : PyExc)
      (hrejected : ∀ pair, secret.keyPair? = some pair →
        secret.version ≠ m.currentVersion ∧ ∃ exc, secret.ttl? = .error exc) :
      ExamineSpec m secret (.error exc)
  | missingFields (hnone : secret.keyPair? = none) : ExamineSpec m secret (.ok .missingFields)
  | unchanged (pair : Json × Json) (hpair : secret.keyPair? = some pair)
      (hversion : secret.version = m.currentVersion) : ExamineSpec m secret (.ok .unchanged)
  | accepted (credential : Credential)
      (hpair : secret.keyPair? = some (credential.apiKey, credential.apiSecret))
      (hchanged : secret.version ≠ m.currentVersion)
      (httl : secret.ttl? = .ok credential.ttl)
      (hversion : credential.version = secret.version)
      (hoid : credential.oid = m.nextOid) :
      ExamineSpec m secret (.ok (.accepted credential))

theorem examine_spec (m : CredentialManager) (secret : SecretData) (t : LoadReadings) :
    ExamineSpec m secret (m.examine secret t) := by
  have hrefused : secret.keyPair? = none → ∀ exc : PyExc, ExamineSpec m secret (.error exc) := by
    intro hnone exc
    refine .raised exc ?_
    intro pair hpair
    rw [hnone] at hpair
    cases hpair
  unfold examine
  cases hkey : jsonGet secret.data "api_key" (.str "") with
  | error exc => exact hrefused (by simp [SecretData.keyPair?, hkey]) exc
  | ok apiKey =>
  cases hsecret : jsonGet secret.data "api_secret" (.str "") with
  | error exc => exact hrefused (by simp [SecretData.keyPair?, hsecret]) exc
  | ok apiSecret =>
  cases httl : jsonGet secret.data "ttl" .null with
  | error exc =>
      -- All three reads fail alike, on a payload that is not a dictionary.
      exfalso
      cases hdata : secret.data <;> simp [jsonGet, hdata] at hkey httl
  | ok ttl =>
  simp only [bind, Except.bind, pure, Except.pure]
  by_cases hmissing : (!apiKey.truthy || !apiSecret.truthy) = true
  · have hfalse : (apiKey.truthy && apiSecret.truthy) = false := by
      cases hk : apiKey.truthy <;> cases hs : apiSecret.truthy <;> simp [hk, hs] at hmissing ⊢
    rw [if_pos hmissing]
    exact .missingFields (by simp [SecretData.keyPair?, hkey, hsecret, hfalse])
  · have htrue : (apiKey.truthy && apiSecret.truthy) = true := by
      cases hk : apiKey.truthy <;> cases hs : apiSecret.truthy <;> simp [hk, hs] at hmissing ⊢
    have hpair : secret.keyPair? = some (apiKey, apiSecret) := by
      simp [SecretData.keyPair?, hkey, hsecret, htrue]
    rw [if_neg hmissing]
    by_cases hversion : secret.version = m.currentVersion
    · rw [if_pos hversion]
      exact .unchanged _ hpair hversion
    · rw [if_neg hversion]
      cases hparse : parseTtl ttl with
      | error exc =>
          refine .raised exc ?_
          intro pair _
          exact ⟨hversion, exc, by simp [SecretData.ttl?, httl, hparse]⟩
      | ok n =>
          refine .accepted _ hpair hversion ?_ rfl rfl
          simp [SecretData.ttl?, httl, hparse]

theorem loadCredentials_spec (path : String) (m : CredentialManager) (read : VaultRead)
    (t : LoadReadings) : LoadSpec path m read t (loadCredentials path m read t) := by
  unfold loadCredentials
  cases read with
  | error text => exact .failed _ t text _ (fun secret h => by cases h)
  | ok secret =>
      have hspec := m.examine_spec secret t
      simp only [processSecret]
      generalize m.examine secret t = finding at hspec ⊢
      cases hspec with
      | raised exc hrejected =>
          refine .failed _ t exc.str _ ?_
          intro secret' heq
          rw [← Except.ok.inj heq]
          exact hrejected
      | missingFields hnone =>
          refine .failed _ t _ _ ?_
          intro secret' heq pair hpair
          rw [← Except.ok.inj heq, hnone] at hpair
          cases hpair
      | unchanged pair hpair hversion => exact .unchanged secret t pair _ hpair hversion
      | accepted credential hpair hchanged httl hversion hoid =>
          exact .installed secret t credential hpair hchanged httl hversion hoid

/-- The read gives a complete secret of another version than the current one, and
that version is an integer that the gauge cannot hold. -/
def Overflows (m : CredentialManager) (read : VaultRead) : Prop :=
  ∃ secret pair ttl, read = .ok secret ∧ secret.keyPair? = some pair ∧
    secret.ttl? = .ok ttl ∧ secret.version ≠ m.currentVersion ∧ ¬ Gaugeable secret.version

/-- A load installs a credential and returns `False` exactly on such a read. -/
theorem overflows_iff (path : String) (m : CredentialManager) (read : VaultRead)
    (t : LoadReadings) :
    m.Overflows read ↔ (m.loadCredentials path read t).1 = false ∧
      (m.loadCredentials path read t).2.1.currentVersion ≠ m.currentVersion := by
  have hspec := loadCredentials_spec path m read t
  generalize m.loadCredentials path read t = r at hspec ⊢
  cases hspec with
  | failed read t error outputs hrejected =>
      refine iff_of_false ?_ (fun h => h.2 rfl)
      rintro ⟨secret, pair, ttl, rfl, hpair, httl, -⟩
      obtain ⟨-, exc, herror⟩ := hrejected secret rfl pair hpair
      rw [httl] at herror
      cases herror
  | unchanged secret t pair outputs hpair hversion =>
      refine iff_of_false ?_ (fun h => by cases h.1)
      rintro ⟨secret', pair', ttl, hread, -, -, hchanged, -⟩
      rw [← Except.ok.inj hread] at hchanged
      exact hchanged hversion
  | installed secret t credential hpair hchanged httl hversion =>
      have hresult := m.loadInstalled_result path credential t
      rw [hversion] at hresult
      rw [loadInstalled_currentVersion, hversion, ← Bool.not_eq_true, hresult]
      constructor
      · rintro ⟨secret', pair', ttl, hread, -, -, -, hversion'⟩
        rw [← Except.ok.inj hread] at hversion'
        exact ⟨hversion', hchanged⟩
      · exact fun h => ⟨secret, _, _, rfl, hpair, httl, hchanged, h.1⟩

/-- Any other load that returns `False` writes the text and the count and nothing else. -/
theorem failed_of_not_overflows (path : String) {m : CredentialManager} {read : VaultRead}
    (t : LoadReadings) (hfailed : (m.loadCredentials path read t).1 = false)
    (hfits : ¬ m.Overflows read) :
    ∃ error, (m.loadCredentials path read t).2.1 =
      { m with
        lastError := some error
        credentialFetchErrorsTotal := m.credentialFetchErrorsTotal + 1 } := by
  have hkept : ¬ (m.loadCredentials path read t).2.1.currentVersion ≠ m.currentVersion :=
    fun hmoved => hfits ((m.overflows_iff path read t).mpr ⟨hfailed, hmoved⟩)
  have hspec := loadCredentials_spec path m read t
  generalize m.loadCredentials path read t = r at hspec hfailed hkept ⊢
  cases hspec with
  | failed read t error => exact ⟨error, rfl⟩
  | unchanged => cases hfailed
  | installed secret t credential hpair hchanged httl hversion =>
      rw [loadInstalled_currentVersion, hversion] at hkept
      exact absurd hchanged hkept

instance (m : CredentialManager) (read : VaultRead) : Decidable (m.Overflows read) :=
  decidable_of_iff _ (overflows_iff "" m read ⟨0, 0, 0⟩).symm

end CredentialManager

/-! ## A sample secret -/

/-- A clock that stands still during a load. -/
def LoadReadings.at (now : Rat) : LoadReadings := ⟨now, now, now⟩

/-- A secret with the given version, key and secret, and no ttl. -/
def sampleSecret (version : Int) (apiKey apiSecret : String) : SecretData where
  data := .obj [("api_key", .str apiKey), ("api_secret", .str apiSecret)]
  version := some version

end PaymentConnector
