import PaymentConnector.AuditTrail

/-!
# One audit event for each load

A load audits its access in two layers: the Vault client once for every read, and
`load_credentials` once more for every exception that it catches.  The two add up to
one event with the right outcome when the load succeeds; a read that fails is audited
twice, and a secret that is read and then rejected is audited as a success.

Vault's metadata has the types that `SecretData` declares.

## Main results

* `VaultClient.readSecret_ok_iff` — the reads that succeed.
* `CredentialManager.audited_load_iff` — a load is audited faithfully exactly when
  Vault delivers a secret in time and nothing of it makes the manager fail.
-/

namespace PaymentConnector

/-! ## Reads that succeed -/

/-- The exceptions after which `read_secret` tries again. -/
def VaultExc.Transient : VaultExc → Prop
  | .connection _ | .other _ => True
  | .auth _ | .secretNotFound _ => False

/-- What Vault returns has the metadata of a KV v2 secret: a version number and a text
for the time of creation, or neither. -/
def VaultAttempt.Typed (a : VaultAttempt) : Prop :=
  ∀ token mountPoint subPath response d path secret,
    a.read token mountPoint subPath = .returned response → pyDict response = .ok d →
      parseResponse d path = .ok secret → secret.typed?.isSome = true

namespace VaultClient

/-- One of the next attempts reads the secret, and those before it fail in a way that
is tried again. -/
inductive Delivers (path : String) (env : Nat → VaultAttempt) (secret : KvSecret) :
    Nat → Nat → VaultClient → Prop
  | now {remaining attempt : Nat} {c : VaultClient}
      (hread : (c.attemptRead path (env attempt)).1 = .ok secret) :
      Delivers path env secret (remaining + 1) attempt c
  | later {remaining attempt : Nat} {c : VaultClient} (exc : VaultExc)
      (hfailed : (c.attemptRead path (env attempt)).1 = .error exc) (htransient : exc.Transient)
      (hrest : Delivers path env secret remaining (attempt + 1)
        (c.attemptRead path (env attempt)).2.1) :
      Delivers path env secret (remaining + 1) attempt c

section Attempts

variable {path : String} {env : Nat → VaultAttempt} {secret : KvSecret} {remaining attempt : Nat}
  {c : VaultClient}

private theorem delivers_of_ok {secret' : KvSecret}
    (h : (c.attemptRead path (env attempt)).1 = .ok secret') :
    Delivers path env secret (remaining + 1) attempt c ↔ secret' = secret := by
  constructor
  · intro hdelivers
    cases hdelivers with
    | now hread =>
        rw [h] at hread
        exact Except.ok.inj hread
    | later exc hfailed =>
        rw [h] at hfailed
        cases hfailed
  · intro heq
    rw [heq] at h
    exact .now h

private theorem delivers_of_error {exc : VaultExc}
    (h : (c.attemptRead path (env attempt)).1 = .error exc) :
    Delivers path env secret (remaining + 1) attempt c ↔
      exc.Transient ∧
        Delivers path env secret remaining (attempt + 1)
          (c.attemptRead path (env attempt)).2.1 := by
  constructor
  · intro hdelivers
    cases hdelivers with
    | now hread =>
        rw [h] at hread
        cases hread
    | later exc' hfailed htransient hrest =>
        rw [h] at hfailed
        cases hfailed
        exact ⟨htransient, hrest⟩
  · exact fun hboth => .later exc h hboth.1 hboth.2

/-- A secret that is delivered comes from a response of Vault. -/
theorem Delivers.typed (henv : ∀ i, (env i).Typed)
    (h : Delivers path env secret remaining attempt c) : secret.typed?.isSome = true := by
  induction h with
  | later exc hfailed htransient hrest ih => exact ih
  | @now remaining attempt c hread =>
      unfold attemptRead readKv2 at hread
      generalize c.getClient (env attempt) = r at hread
      obtain ⟨result, c', outputs⟩ := r
      cases result with
      | error exc => cases hread
      | ok client =>
          dsimp only at hread
          cases hresponse : (env attempt).read client.token (parseKv2Path path).1
              (parseKv2Path path).2 with
          | returned response =>
              cases hdict : pyDict response with
              | error exc =>
                  rw [hresponse] at hread
                  cases response <;> simp only [hdict] at hread <;> cases hread
              | ok d =>
                  have hparse : parseResponse d path = .ok secret := by
                    rw [hresponse] at hread
                    cases response with
                    | null => cases hread
                    | _ =>
                        simp only [hdict] at hread
                        exact hread
                  exact henv attempt _ _ _ response d path secret hresponse hdict hparse
          | invalidPath => rw [hresponse] at hread; cases hread
          | forbidden => rw [hresponse] at hread; cases hread
          | vaultError text => rw [hresponse] at hread; cases hread
          | raised exc => rw [hresponse] at hread; cases hread

end Attempts

/-- The loop returns the secret that is delivered. -/
private theorem readLoop_ok_iff (path : String) (maxRetries : Nat) (env : Nat → VaultAttempt)
    (secret : KvSecret) (remaining : Nat) : ∀ (attempt : Nat) (last : String) (c : VaultClient),
      (readLoop path maxRetries env remaining attempt last c).1 = .ok secret ↔
        Delivers path env secret remaining attempt c := by
  induction remaining with
  | zero => exact fun _ _ _ => iff_of_false (fun h => by cases h) (fun h => by cases h)
  | succ remaining ih =>
      intro attempt last c
      unfold readLoop
      split
      · rename_i secret' c' outputs hread
        rw [delivers_of_ok (congrArg Prod.fst hread)]
        exact ⟨Except.ok.inj, congrArg Except.ok⟩
      · rename_i text c' outputs hread
        rw [delivers_of_error (congrArg Prod.fst hread)]
        exact iff_of_false (fun h => by cases h) And.left
      · rename_i text c' outputs hread
        rw [delivers_of_error (congrArg Prod.fst hread)]
        exact iff_of_false (fun h => by cases h) And.left
      · rename_i exc c' outputs hauth hmissing hread
        have htransient : exc.Transient := by
          cases exc with
          | connection text => trivial
          | other exc => trivial
          | auth text => exact absurd rfl (hauth text)
          | secretNotFound text => exact absurd rfl (hmissing text)
        rw [delivers_of_error (congrArg Prod.fst hread), and_iff_right htransient, hread]
        exact ih (attempt + 1) exc.str c'

theorem readSecret_ok_iff (c : VaultClient) (settings : Settings) (path : Option String)
    (env : Nat → VaultAttempt) (secret : KvSecret) :
    (c.readSecret settings path env).1 = .ok secret ↔
      Delivers (orDefault path settings.vaultSecretPath) env secret maxRetries 1 c :=
  readLoop_ok_iff _ maxRetries env secret maxRetries 1 "None" c

end VaultClient

/-! ## Loads -/

namespace CredentialManager

/-- `load_credentials` with the reads of its Vault client. -/
def loadFrom (settings : Settings) (m : CredentialManager) (c : VaultClient)
    (env : Nat → VaultAttempt) (t : LoadReadings) :
    Option (Bool × CredentialManager × VaultClient × List Output) :=
  let (result, c, outputs) := c.readSecret settings none env
  match vaultRead? result with
  | none => none
  | some read =>
      let (loaded, m, outputs') := m.loadCredentials settings.vaultSecretPath read t
      some (loaded, m, c, outputs ++ outputs')

/-- One access is audited, and its outcome is that of the load. -/
def AuditedFaithfully (loaded : Bool) (events : List AuditEvent) : Prop :=
  ∃ event, events.filter (fun event => event.event = "credential_access") = [event] ∧
    (event.outcome = "success" ↔ loaded = true)

/-- The secret is complete, and of the current version or of one that the gauge can hold,
with a ttl that `int` takes. -/
def Accepts (m : CredentialManager) (secret : SecretData) : Prop :=
  secret.keyPair?.isSome = true ∧
    (secret.version = m.currentVersion ∨
      Gaugeable secret.version ∧ ∃ ttl, secret.ttl? = .ok ttl)

/-- The events of a load after a successful read. -/
private theorem audited_of_ok {path : String} {m : CredentialManager} {secret : SecretData}
    {t : LoadReadings} (path' : String) (version : Json) :
    AuditedFaithfully (m.loadCredentials path (.ok secret) t).1
        (VaultClient.auditSecretRead path' version ::
          auditsOf (m.loadCredentials path (.ok secret) t).2.2) ↔
      m.Accepts secret := by
  have haudits := m.loadCredentials_audits path (.ok secret) t
  generalize m.loadCredentials path (.ok secret) t = r at haudits ⊢
  obtain ⟨loaded, m', outputs⟩ := r
  dsimp only at haudits ⊢
  generalize auditsOf outputs = events at haudits ⊢
  cases haudits with
  | accepted c haccepted hfits =>
      obtain ⟨secret', hread, hpair, httl, -, hc⟩ := accepted?_eq_some haccepted
      cases hread
      rw [hc] at hfits
      refine iff_of_true ⟨VaultClient.auditSecretRead path' version, ?_, fun _ => rfl, fun _ => rfl⟩
        ⟨by rw [hpair]; rfl, Or.inr ⟨hfits, _, httl⟩⟩
      split <;> rfl
  | unchanged secret' hread hpair hversion =>
      cases hread
      exact iff_of_true ⟨VaultClient.auditSecretRead path' version, rfl, fun _ => rfl, fun _ => rfl⟩
        ⟨hpair, Or.inl hversion⟩
  | incomplete secret' hread hpair =>
      cases hread
      refine iff_of_false ?_ ?_
      · rintro ⟨event, hone, houtcome⟩
        cases hone
        cases houtcome.mp rfl
      · intro haccepts
        have hsome := haccepts.1
        rw [hpair] at hsome
        cases hsome
  | raised hrejected =>
      refine iff_of_false ?_ ?_
      · rintro ⟨event, hone, -⟩
        cases hone
      · intro haccepts
        obtain ⟨hchanged, hwhy⟩ := hrejected secret rfl haccepts.1
        rcases haccepts.2 with hsame | ⟨hfits, ttl, httl⟩
        · exact hchanged hsame
        · rcases hwhy with ⟨exc, hraised⟩ | hoverflows
          · rw [httl] at hraised
            cases hraised
          · exact hoverflows hfits

/-- A load whose read fails is audited twice. -/
private theorem not_audited_of_error {path : String} {m : CredentialManager} {text : String}
    {t : LoadReadings} (path' : String) :
    ¬ AuditedFaithfully (m.loadCredentials path (.error text) t).1
      (auditCredentialAccess path' none "failure" ::
        auditsOf (m.loadCredentials path (.error text) t).2.2) := by
  rintro ⟨event, hone, -⟩
  cases hone

/-- A load is audited once, with the outcome that it has, exactly when one of the
attempts delivers a secret that the manager accepts. -/
theorem audited_load_iff (settings : Settings) (m : CredentialManager) (c : VaultClient)
    (env : Nat → VaultAttempt) (t : LoadReadings) (htyped : ∀ i, (env i).Typed) :
    ∃ loaded m' c' outputs, m.loadFrom settings c env t = some (loaded, m', c', outputs) ∧
      (AuditedFaithfully loaded (auditsOf outputs) ↔
        ∃ kv secret, VaultClient.Delivers settings.vaultSecretPath env kv maxRetries 1 c ∧
          kv.typed? = some secret ∧ m.Accepts secret) := by
  have haudits := c.readSecret_audits settings none env
  have hok := fun kv => c.readSecret_ok_iff settings none env kv
  have hpath : orDefault none settings.vaultSecretPath = settings.vaultSecretPath := rfl
  rw [hpath] at haudits hok
  unfold loadFrom
  generalize c.readSecret settings none env = r at haudits hok ⊢
  obtain ⟨result, c', outputs⟩ := r
  dsimp only at haudits hok ⊢
  cases result with
  | error exc =>
      refine ⟨_, _, _, _, rfl, ?_⟩
      rw [auditsOf_append, haudits]
      refine iff_of_false (not_audited_of_error _) ?_
      intro hex
      obtain ⟨kv, -, hdelivers, -⟩ := hex
      cases (hok kv).mpr hdelivers
  | ok kv =>
      have hdelivers := (hok kv).mp rfl
      obtain ⟨secret, hsecret⟩ := Option.isSome_iff_exists.mp (hdelivers.typed htyped)
      have hread : vaultRead? (.ok kv) = some (.ok secret) := by
        rw [vaultRead?, hsecret]
        rfl
      rw [hread]
      refine ⟨_, _, _, _, rfl, ?_⟩
      rw [auditsOf_append, haudits]
      refine (audited_of_ok _ _).trans ?_
      constructor
      · exact fun haccepts => ⟨kv, secret, hdelivers, hsecret, haccepts⟩
      · intro hex
        obtain ⟨kv', secret', hdelivers', hsecret', haccepts⟩ := hex
        have hsame : kv = kv' := Except.ok.inj ((hok kv').mpr hdelivers')
        rw [← hsame, hsecret, Option.some.injEq] at hsecret'
        rw [hsecret']
        exact haccepts

/-- A Vault that answers every read with the given payload as version 1. -/
def payloadAttempt (payload : Json) : VaultAttempt where
  tokenFile := .text "jwt"
  login := fun _ _ => .ok "hvs.1"
  read := fun _ _ _ => .returned (.obj [("data", .obj [("data", payload),
    ("metadata", .obj [("version", .int 1)])])])
  lookup := fun _ => .ok true

theorem payloadAttempt_typed (payload : Json) : (payloadAttempt payload).Typed := by
  intro token mountPoint subPath response d path secret hread hdict hparse
  cases hread
  cases hdict
  cases hparse
  rfl

def sampleVaultClient : VaultClient := .init sampleSettings none none none none

/-- A secret with both its fields. -/
def completePayload : Json := .obj [("api_key", .str "key-v1"), ("api_secret", .str "s")]

theorem audited_load_iff_complete :
    ∃ m' c' outputs kv secret,
      init.loadFrom sampleSettings sampleVaultClient (fun _ => payloadAttempt completePayload)
        (.at 1) = some (true, m', c', outputs) ∧
      AuditedFaithfully true (auditsOf outputs) ∧
      VaultClient.Delivers sampleSettings.vaultSecretPath
        (fun _ => payloadAttempt completePayload) kv maxRetries 1 sampleVaultClient ∧
      kv.typed? = some secret ∧ init.Accepts secret := by
  obtain ⟨loaded, m', c', outputs, hload, haudited⟩ := audited_load_iff sampleSettings init
    sampleVaultClient (fun _ => payloadAttempt completePayload) (.at 1)
    (fun _ => payloadAttempt_typed _)
  obtain rfl : loaded = true := by
    have hresult : (init.loadFrom sampleSettings sampleVaultClient
        (fun _ => payloadAttempt completePayload) (.at 1)).map Prod.fst = some true := by
      decide +kernel
    rw [hload] at hresult
    exact Option.some.inj hresult
  have hone : AuditedFaithfully true (auditsOf outputs) := by
    have hshown : ((init.loadFrom sampleSettings sampleVaultClient
        (fun _ => payloadAttempt completePayload) (.at 1)).map fun r => r.2.2.2) =
          some outputs := by
      rw [hload]
      rfl
    cases hshown
    exact ⟨_, rfl, fun _ => rfl, fun _ => rfl⟩
  obtain ⟨kv, secret, hdelivers, htyped, haccepts⟩ := haudited.mp hone
  exact ⟨m', c', outputs, kv, secret, hload, hone, hdelivers, htyped, haccepts⟩

/-- A secret without a key is audited as a success, and the load returns `False`. -/
theorem not_audited_missingKey :
    ∃ m' c' outputs,
      init.loadFrom sampleSettings sampleVaultClient
        (fun _ => payloadAttempt (.obj [("api_secret", .str "s")])) (.at 1) =
          some (false, m', c', outputs) ∧
      ¬ AuditedFaithfully false (auditsOf outputs) := by
  refine ⟨_, _, _, rfl, ?_⟩
  rintro ⟨event, hone, houtcome⟩
  cases hone
  cases houtcome.mp rfl

end CredentialManager

end PaymentConnector
