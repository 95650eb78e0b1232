import PaymentConnector.Loads

/-!
# Loads that fail

An exception of a load is caught in one place, and all but one of the steps of
`_process_secret` that can raise come before its first assignment.  The exception is the
version gauge, which is set last: a version that is no float is installed by a load that
returns `False`.

## Main results

* `CredentialManager.loadCredentials_eq_false_iff` — the loads that fail.
* `CredentialManager.failedLoad` — when they leave the credentials as they were.
-/

namespace PaymentConnector

namespace CredentialManager

/-- Why a load fails: an exception from `read_secret`, a payload that is no mapping, a
missing or empty field, a ttl that `int` rejects in a secret of another version, and a
version that the gauge cannot hold. -/
inductive Failure (m : CredentialManager) : VaultRead → Prop
  | raised (text : String) : Failure m (.error text)
  | noMapping (secret : SecretData) (hdata : ∀ fields, secret.data ≠ .obj fields) :
      Failure m (.ok secret)
  | incomplete (secret : SecretData) (fields : List (String × Json))
      (hdata : secret.data = .obj fields) (hpair : secret.keyPair? = none) :
      Failure m (.ok secret)
  | badTtl (secret : SecretData) (exc : PyExc) (hchanged : secret.version ≠ m.currentVersion)
      (httl : secret.ttl? = .error exc) : Failure m (.ok secret)
  | overflow (read : VaultRead) (hoverflows : m.Overflows read) : Failure m read

/-- A payload that is no mapping has no key pair. -/
private theorem keyPair?_of_no_mapping {secret : SecretData}
    (h : ∀ fields, secret.data ≠ .obj fields) : secret.keyPair? = none := by
  unfold SecretData.keyPair?
  cases hdata : secret.data with
  | obj fields => exact absurd hdata (h fields)
  | _ => rfl

/-- A load returns `False` for these reasons and for no other. -/
theorem loadCredentials_eq_false_iff (path : String) (m : CredentialManager) (read : VaultRead)
    (t : LoadReadings) : (m.loadCredentials path read t).1 = false ↔ m.Failure read := by
  have hoverflows := m.overflows_iff path read t
  have hspec := loadCredentials_spec path m read t
  generalize m.loadCredentials path read t = r at hspec hoverflows ⊢
  cases hspec with
  | failed read t error outputs hrejected =>
      refine iff_of_true rfl ?_
      cases read with
      | error text => exact .raised text
      | ok secret =>
          cases hpair : secret.keyPair? with
          | some pair =>
              obtain ⟨hchanged, exc, httl⟩ := hrejected secret rfl pair hpair
              exact .badTtl secret exc hchanged httl
          | none =>
              cases hdata : secret.data with
              | obj fields => exact .incomplete secret fields hdata hpair
              | _ => exact .noMapping secret (fun fields h => by rw [hdata] at h; cases h)
  | unchanged secret t pair outputs hpair hversion =>
      refine iff_of_false (fun h => by cases h) ?_
      intro hfailure
      cases hfailure with
      | noMapping _ hdata =>
          rw [keyPair?_of_no_mapping hdata] at hpair
          cases hpair
      | incomplete _ fields hdata hnone =>
          rw [hnone] at hpair
          cases hpair
      | badTtl _ exc hchanged => exact hchanged hversion
      | overflow _ hover => cases (hoverflows.mp hover).1
  | installed secret t credential hpair hchanged httl hversion =>
      have hmoved : (m.loadInstalled path credential t).2.1.currentVersion ≠
          m.currentVersion := by
        rw [loadInstalled_currentVersion, hversion]
        exact hchanged
      constructor
      · exact fun hfalse => .overflow _ (hoverflows.mpr ⟨hfalse, hmoved⟩)
      · intro hfailure
        cases hfailure with
        | noMapping _ hdata =>
            rw [keyPair?_of_no_mapping hdata] at hpair
            cases hpair
        | incomplete _ fields hdata hnone =>
            rw [hnone] at hpair
            cases hpair
        | badTtl _ exc _ hraised =>
            rw [httl] at hraised
            cases hraised
        | overflow _ hover => exact (hoverflows.mp hover).1

/-- What stays the same in a failed load, and what is counted. -/
structure Intact (m m' : CredentialManager) : Prop where
  cache : m'.cache = m.cache
  currentVersion : m'.currentVersion = m.currentVersion
  previousVersion : m'.previousVersion = m.previousVersion
  current : m'.getCurrentCredential = m.getCurrentCredential
  fallback : m'.getFallbackCredential = m.getFallbackCredential
  rotations : m'.credentialRotationTotal = m.credentialRotationTotal
  errors : m'.credentialFetchErrorsTotal = m.credentialFetchErrorsTotal + 1

/-- Each of the failures ends in `False`, and a load that ends in `False` leaves the
credentials intact and counts one error. -/
structure FailsSafely (path : String) (m : CredentialManager) (read : VaultRead)
    (t : LoadReadings) : Prop where
  reported : m.Failure read → (m.loadCredentials path read t).1 = false
  intact : (m.loadCredentials path read t).1 = false →
    m.Intact (m.loadCredentials path read t).2.1

/-- Whatever the state of the manager, a load fails safely exactly when it does not read a
complete secret of another version that the gauge cannot hold. -/
theorem failedLoad (path : String) (m : CredentialManager) (read : VaultRead)
    (t : LoadReadings) : m.FailsSafely path read t ↔ ¬ m.Overflows read := by
  constructor
  · intro hsafe hoverflows
    obtain ⟨hfalse, hmoved⟩ := (m.overflows_iff path read t).mp hoverflows
    exact hmoved (hsafe.intact hfalse).currentVersion
  · intro hfits
    refine ⟨(loadCredentials_eq_false_iff path m read t).mpr, ?_⟩
    intro hfalse
    obtain ⟨error, hwritten⟩ := failed_of_not_overflows path t hfalse hfits
    rw [hwritten]
    exact ⟨rfl, rfl, rfl, rfl, rfl, rfl, rfl⟩

/-- A manager that has loaded its first version. -/
def sampleLoaded : CredentialManager :=
  (init.loadCredentials ({} : Settings).vaultSecretPath
    (.ok (sampleSecret 1 "key-v1" "secret-v1")) (.at 0)).2.1

/-- The least version that the gauge cannot hold. -/
def hugeSecret : SecretData := sampleSecret floatBound "key-v2" "secret-v2"

/-- The load returns `False` and has made the secret's version the current one. -/
theorem not_failsSafely_hugeVersion :
    (sampleLoaded.loadCredentials ({} : Settings).vaultSecretPath (.ok hugeSecret)
        (.at 60)).1 = false ∧
      (sampleLoaded.loadCredentials ({} : Settings).vaultSecretPath (.ok hugeSecret)
        (.at 60)).2.1.currentVersion = some floatBound ∧
      ¬ sampleLoaded.FailsSafely ({} : Settings).vaultSecretPath (.ok hugeSecret) (.at 60) := by
  have hload : (sampleLoaded.loadCredentials ({} : Settings).vaultSecretPath (.ok hugeSecret)
        (.at 60)).1 = false ∧
      (sampleLoaded.loadCredentials ({} : Settings).vaultSecretPath (.ok hugeSecret)
        (.at 60)).2.1.currentVersion = some floatBound ∧
      sampleLoaded.currentVersion ≠ some floatBound := by decide +kernel
  obtain ⟨hfalse, hmoved, hother⟩ := hload
  refine ⟨hfalse, hmoved, ?_⟩
  intro hsafe
  exact hother ((hsafe.intact hfalse).currentVersion.symm.trans hmoved)

end CredentialManager

end PaymentConnector
