import PaymentConnector.CredentialStore

/-!
# Replicas and the age of a credential

The age of a credential is counted from the moment at which the manager at hand
loaded it, not from the creation of the secret, which is stored next to it.  Two
managers that hold the same version therefore report the same status as long as they do
exactly when they loaded it at the same moment, or so late that it was over for both; a
restart starts its lifetime anew.

## Main results

* `CredentialManager.current_from` — the current credential has the ttl of its version.
* `CredentialManager.replicasAgree_iff` — when two managers agree.
-/

namespace PaymentConnector

/-! ## One Vault -/

/-- The secrets of a Vault by their versions.  A version is never written again. -/
structure VersionedSecrets where
  secret : Int → SecretData
  version_eq : ∀ v, (secret v).version = some v

/-- A load reads one of the versions, or fails. -/
def Load.From (vault : VersionedSecrets) (l : Load) : Prop :=
  ∀ secret, l.read = .ok secret → ∃ v, secret = vault.secret v

theorem Load.From.versioned {vault : VersionedSecrets} {l : Load} (h : l.From vault) :
    CredentialManager.Load.Versioned l := by
  intro secret pair hread _ hnone
  obtain ⟨v, hv⟩ := h secret hread
  rw [hv, vault.version_eq] at hnone
  cases hnone

namespace CredentialManager

section Loads

variable {path : String} {vault : VersionedSecrets}

/-- What a load accepts has the ttl of its version. -/
private theorem accepted?_from {m : CredentialManager} {l : Load} (h : l.From vault)
    {c : Credential} (hc : m.accepted? l = some c) :
    ∃ v, c.version = some v ∧ (vault.secret v).ttl? = .ok c.ttl := by
  obtain ⟨secret, hread, -, httl, -, heq⟩ := accepted?_eq_some hc
  obtain ⟨v, hv⟩ := h secret hread
  rw [hv] at httl heq
  refine ⟨v, ?_, httl⟩
  rw [heq]
  exact vault.version_eq v

private theorem accepted_from {ls : List Load} (h : ∀ l ∈ ls, l.From vault)
    {m : CredentialManager} {c : Credential} (hc : c ∈ accepted path m ls) :
    ∃ v, c.version = some v ∧ (vault.secret v).ttl? = .ok c.ttl := by
  induction ls generalizing m with
  | nil => exact absurd hc List.not_mem_nil
  | cons l ls ih =>
      rw [accepted] at hc
      rcases List.mem_append.mp hc with hhere | hrest
      · exact accepted?_from (h l List.mem_cons_self) (Option.mem_toList.mp hhere)
      · exact ih (fun l' hin => h l' (List.mem_cons_of_mem l hin)) hrest

/-- The current credential has the ttl that its version has in Vault. -/
theorem current_from {ls : List Load} (h : ∀ l ∈ ls, l.From vault) {c : Credential}
    (hc : (afterLoads path init ls).getCurrentCredential = some c) :
    ∃ v, c.version = some v ∧ (vault.secret v).ttl? = .ok c.ttl := by
  have hstores : (afterLoads path init ls).Stores ([] ++ accepted path init ls) :=
    afterLoads_stores (fun l hin => (h l hin).versioned) init_stores
  rw [hstores.current, List.nil_append] at hc
  exact accepted_from h (List.mem_of_getLast? hc)

end Loads

/-! ## Two managers -/

/-- Two credentials of which one, with the given lifetime, is over and the other is not. -/
private theorem not_agree_of_expired {c c' : Credential} {seconds : Int} {t : Rat}
    (hlives : c.Lives seconds) (hlives' : c'.Lives seconds)
    (hover : (seconds : Rat) ≤ c.ageSeconds t) (hlive : c'.ageSeconds t < seconds) :
    ¬ ∃ status, c.status t = .ok status ∧ c'.status t = .ok status := by
  rintro ⟨status, hstatus, hstatus'⟩
  rw [(c.status_eq_expired_iff t).mpr ⟨seconds, hlives, hover⟩, Except.ok.injEq] at hstatus
  rw [← hstatus, Credential.status_eq_expired_iff] at hstatus'
  obtain ⟨seconds', hseconds, hover'⟩ := hstatus'
  rw [hseconds.unique hlives'] at hover'
  exact absurd hover' (not_le.mpr hlive)

/-- Of two credentials with one lifetime, the one that was loaded first is over first,
unless both were over by then. -/
private theorem over_of_agree {c c' : Credential} {seconds : Int} {since : Rat}
    (hlives : c.Lives seconds) (hlives' : c'.Lives seconds) (hlt : c.loadedAt < c'.loadedAt)
    (hagree : ∀ t, since ≤ t → ∃ status, c.status t = .ok status ∧ c'.status t = .ok status) :
    (seconds : Rat) ≤ since - c'.loadedAt := by
  by_contra hlive
  rw [not_le] at hlive
  -- The first moment from `since` on at which the older one is over.
  have hover : (seconds : Rat) ≤ c.ageSeconds (max since (c.loadedAt + seconds)) := by
    have hle := le_max_right since (c.loadedAt + seconds)
    unfold Credential.ageSeconds
    linarith
  have hyoung : c'.ageSeconds (max since (c.loadedAt + seconds)) < seconds := by
    unfold Credential.ageSeconds
    rcases max_choice since (c.loadedAt + seconds) with h | h
    · rw [h]
      exact hlive
    · rw [h]
      linarith
  exact not_agree_of_expired hlives hlives' hover hyoung (hagree _ (le_max_left _ _))

/-- Two credentials with one ttl have the same status from some moment on exactly when the
ttl can be a float, and they were loaded at the same moment or both were over by then. -/
theorem status_agree_iff {c c' : Credential} {ttl : Int} (since : Rat) (httl : c.ttl = some ttl)
    (httl' : c'.ttl = some ttl) :
    (∀ t, since ≤ t → ∃ status, c.status t = .ok status ∧ c'.status t = .ok status) ↔
      ttl.natAbs < floatBound ∧ (c.loadedAt = c'.loadedAt ∨
        (roundToFloat ttl : Rat) ≤ since - max c.loadedAt c'.loadedAt) := by
  have hlives : ∀ {c : Credential}, c.ttl = some ttl → ttl.natAbs < floatBound →
      c.Lives (roundToFloat ttl) := fun httl hfits => ⟨ttl, httl, pyFloat_of_lt hfits⟩
  constructor
  · intro hagree
    have hfits : ttl.natAbs < floatBound := by
      obtain ⟨status, hstatus, -⟩ := hagree since le_rfl
      exact (c.status_ok_iff since).mp ⟨status, hstatus⟩ ttl httl
    refine ⟨hfits, ?_⟩
    rcases lt_trichotomy c.loadedAt c'.loadedAt with hlt | heq | hgt
    · right
      rw [max_eq_right hlt.le]
      exact over_of_agree (hlives httl hfits) (hlives httl' hfits) hlt hagree
    · exact Or.inl heq
    · right
      rw [max_eq_left hgt.le]
      refine over_of_agree (hlives httl' hfits) (hlives httl hfits) hgt (fun t ht => ?_)
      obtain ⟨status, hstatus, hstatus'⟩ := hagree t ht
      exact ⟨status, hstatus', hstatus⟩
  · rintro ⟨hfits, hwhen⟩ t ht
    rcases hwhen with heq | hover
    · obtain ⟨status, hstatus⟩ := (c.status_ok_iff t).mpr (by
        intro ttl' httl''
        rw [Option.mem_unique httl'' httl]
        exact hfits)
      refine ⟨status, hstatus, ?_⟩
      rw [← hstatus]
      unfold Credential.status Credential.ageSeconds
      rw [httl, httl', heq]
    · have hexpired : ∀ {c₀ : Credential}, c₀.ttl = some ttl →
          c₀.loadedAt ≤ max c.loadedAt c'.loadedAt → c₀.status t = .ok .expired := by
        intro c₀ httl₀ hle
        rw [Credential.status_eq_expired_iff]
        refine ⟨_, hlives httl₀ hfits, ?_⟩
        unfold Credential.ageSeconds
        linarith
      exact ⟨.expired, hexpired httl (le_max_left _ _), hexpired httl' (le_max_right _ _)⟩

/-- Two managers that have loaded from the same Vault and hold the same version, one
with a ttl, report the same status from the moment on since which both hold it, exactly
when the ttl can be a float, and they loaded the version at the same moment or the ttl
was over by then for both. -/
theorem replicasAgree_iff (path : String) (vault : VersionedSecrets) (ls ls' : List Load)
    (hfrom : ∀ l ∈ ls, l.From vault) (hfrom' : ∀ l ∈ ls', l.From vault) (c c' : Credential)
    (hc : (afterLoads path init ls).getCurrentCredential = some c)
    (hc' : (afterLoads path init ls').getCurrentCredential = some c') (v ttl : Int)
    (hv : c.version = some v) (hv' : c'.version = some v)
    (httl : (vault.secret v).ttl? = .ok (some ttl)) (since : Rat) :
    (∀ t, since ≤ t → ∃ status,
        (afterLoads path init ls).credentialStatus t = .ok status ∧
          (afterLoads path init ls').credentialStatus t = .ok status) ↔
      ttl.natAbs < floatBound ∧ (c.loadedAt = c'.loadedAt ∨
        (roundToFloat ttl : Rat) ≤ since - max c.loadedAt c'.loadedAt) := by
  have hlife : ∀ {ls : List Load} {c : Credential}, (∀ l ∈ ls, l.From vault) →
      (afterLoads path init ls).getCurrentCredential = some c → c.version = some v →
        c.ttl = some ttl := by
    intro ls c hfrom hc hv
    obtain ⟨u, hu, hlife⟩ := current_from hfrom hc
    rw [hv, Option.some.injEq] at hu
    rw [← hu, httl, Except.ok.injEq] at hlife
    exact hlife.symm
  rw [← status_agree_iff since (hlife hfrom hc hv) (hlife hfrom' hc' hv')]
  unfold credentialStatus
  rw [hc, hc']

/-- Every version lives for two hours. -/
def twoHourVault : VersionedSecrets where
  secret := fun v =>
    { data := .obj [("api_key", .str "key"), ("api_secret", .str "secret"), ("ttl", .int 7200)]
      version := some v }
  version_eq := fun _ => rfl

/-- A manager that starts and reads the first version at the given moment. -/
def restartedAt (now : Rat) : CredentialManager :=
  afterLoads ({} : Settings).vaultSecretPath init [⟨.ok (twoHourVault.secret 1), .at now⟩]

theorem restartedAt_from (now : Rat) :
    ∀ l ∈ [(⟨.ok (twoHourVault.secret 1), .at now⟩ : Load)], l.From twoHourVault := by
  intro l hin secret hread
  rw [List.mem_singleton.mp hin] at hread
  exact ⟨1, (Except.ok.inj hread).symm⟩

theorem restartedAt_current (now : Rat) : (restartedAt now).getCurrentCredential =
    some ⟨0, .str "key", .str "secret", some 1, now, none, some 7200⟩ := rfl

/-- The loads of a manager that does not reach Vault before the given moment. -/
def lateLoads (now : Rat) : List Load :=
  [⟨.error "Vault error", .at 0⟩, ⟨.ok (twoHourVault.secret 1), .at now⟩]

theorem lateLoads_from (now : Rat) : ∀ l ∈ lateLoads now, l.From twoHourVault := by
  intro l hin secret hread
  simp only [lateLoads, List.mem_cons, List.not_mem_nil, or_false] at hin
  rcases hin with rfl | rfl
  · cases hread
  · exact ⟨1, (Except.ok.inj hread).symm⟩

theorem replicasAgree_iff_together :
    (7200 : Int).natAbs < floatBound ∧
      ∀ t, 9000 ≤ t → ∃ status, (restartedAt 9000).credentialStatus t = .ok status ∧
        (afterLoads ({} : Settings).vaultSecretPath init
          (lateLoads 9000)).credentialStatus t = .ok status := by
  have hfits : (7200 : Int).natAbs < floatBound := by decide +kernel
  refine ⟨hfits, ?_⟩
  exact (replicasAgree_iff ({} : Settings).vaultSecretPath twoHourVault _ _
    (restartedAt_from 9000) (lateLoads_from 9000) _
    ⟨0, .str "key", .str "secret", some 1, 9000, none, some 7200⟩ (restartedAt_current 9000) rfl
    1 7200 rfl rfl rfl 9000).mpr ⟨hfits, Or.inl rfl⟩

/-- A restart turns an expired credential into a valid one. -/
theorem not_replicasAgree_restart :
    (restartedAt 0).currentVersion = some 1 ∧ (restartedAt 9000).currentVersion = some 1 ∧
      (restartedAt 0).credentialStatus 9000 = .ok .expired ∧
        (restartedAt 9000).credentialStatus 9000 = .ok .valid := by
  decide +kernel

end CredentialManager

end PaymentConnector
