import PaymentConnector.Service

/-!
# Redaction

Redacting a payload overwrites the values of `api_key` and `api_secret` where they
are non-empty strings.  The service commutes with it: a step of the redacted process
is the redaction of the step, with the same audit events, log lines, answers and
metrics, since nothing but the headers of a POST is computed from the two values.

## Main results

* `pyDict_redact`, `parseResponse_redact` — what the Vault client makes of a response.
* `loadCredentials_redact` — a load.
* `Process.step_redact` — one stretch of code of the process.
-/

namespace PaymentConnector

open Library

/-! ## Payloads -/

/-- A non-empty string. -/
def Json.isNonemptyStr : Json → Bool
  | .str s => s ≠ ""
  | .surrogates codes => codes ≠ []
  | _ => false

/-- A key or a secret, overwritten if it is a non-empty string. -/
def Json.redact (x : Json) : Json := if x.isNonemptyStr then .str "***" else x

/-- Apply a function to the values of an object, by key. -/
def Json.mapFields (f : String → Json → Json) : Json → Json
  | .obj kvs => .obj (kvs.map fun e => (e.1, f e.1 e.2))
  | x => x

def redactField (key : String) (x : Json) : Json :=
  if key = "api_key" ∨ key = "api_secret" then x.redact else x

def redactPayload : Json → Json := Json.mapFields redactField

/-- The payload of a KV v2 response is under `data`, and there again under `data`. -/
def redactWrapper : Json → Json :=
  Json.mapFields fun key x => if key = "data" then redactPayload x else x

/-- The value under a key of the response. -/
def redactEntry (key x : Json) : Json := if isKey "data" key then redactWrapper x else x

def PyDict.redact (d : PyDict) : PyDict := d.map fun e => (e.1, redactEntry e.1 e.2)

/-- One element of a response that is a list of pairs, which `dict` takes as well. -/
def redactPair : Json → Json
  | .arr [key, x] => .arr [key, redactEntry key x]
  | x => x

def redactResponse : Json → Json
  | .arr xs => .arr (xs.map redactPair)
  | x => x.mapFields fun key => redactEntry (.str key)

/-- Redaction makes any two non-empty strings equal, and nothing else. -/
theorem Json.redact_eq_iff (x y : Json) :
    x.redact = y.redact ↔ x = y ∨ (x.isNonemptyStr = true ∧ y.isNonemptyStr = true) := by
  have hstars : (Json.str "***").isNonemptyStr = true := rfl
  unfold Json.redact
  constructor
  · intro h
    split at h
    · rename_i hx
      split at h
      · rename_i hy
        exact Or.inr ⟨hx, hy⟩
      · rename_i hy
        rw [← h] at hy
        exact absurd hstars hy
    · rename_i hx
      split at h
      · rw [h] at hx
        exact absurd hstars hx
      · exact Or.inl h
  · intro h
    rcases h with rfl | ⟨hx, hy⟩
    · rfl
    · rw [if_pos hx, if_pos hy]

@[simp] theorem Json.truthy_redact (x : Json) : x.redact.truthy = x.truthy := by
  unfold Json.redact
  split
  · rename_i h
    cases x <;> simp_all [Json.isNonemptyStr, Json.truthy]
  · rfl

/-- Reading two dictionaries with the same keys, where the one has the image of the
other's value under the key that is read. -/
private theorem find?_of_values {γ : Type} {a b : γ → Json × Json} {key : String}
    {f : Json → Json} (hkeys : ∀ c, (b c).1 = (a c).1)
    (hvalues : ∀ c, (a c).1 = .str key → (b c).2 = f (a c).2) (cs : List γ) :
    PyDict.find? (cs.map b) key = (PyDict.find? (cs.map a) key).map f := by
  unfold PyDict.find?
  rw [← List.map_reverse, ← List.map_reverse, List.find?_map, List.find?_map, Option.map_map,
    Option.map_map, Option.map_map]
  have hsame : (fun e : Json × Json => isKey key e.1) ∘ b =
      (fun e : Json × Json => isKey key e.1) ∘ a := by
    funext c
    exact congrArg (isKey key) (hkeys c)
  rw [hsame]
  cases hfound : cs.reverse.find? ((fun e : Json × Json => isKey key e.1) ∘ a) with
  | none => rfl
  | some c =>
      have hsome := List.find?_some hfound
      exact congrArg some (hvalues c (isKey_iff.mp hsome))

private theorem get_mapFields {f : String → Json → Json} {key : String} {default : Json}
    (hdefault : f key default = default) (kvs : List (String × Json)) :
    (objDict (kvs.map fun e => (e.1, f e.1 e.2))).get key default =
      f key ((objDict kvs).get key default) := by
  have hfind : PyDict.find? (kvs.map fun e => (.str e.1, f e.1 e.2)) key =
      ((objDict kvs).find? key).map (f key) := by
    apply find?_of_values (a := fun e : String × Json => (.str e.1, e.2))
    · exact fun _ => rfl
    · intro e he
      rw [Json.str.inj he]
  unfold PyDict.get
  rw [objDict, List.map_map]
  show (PyDict.find? (kvs.map fun e => (.str e.1, f e.1 e.2)) key).getD default = _
  rw [hfind]
  cases (objDict kvs).find? key with
  | none => exact hdefault.symm
  | some x => rfl

/-- `x.get(key, default)` on an object whose values have been mapped. -/
theorem jsonGet_mapFields {f : String → Json → Json} {key : String} {default : Json}
    (hdefault : f key default = default) (x : Json) :
    jsonGet (x.mapFields f) key default = (jsonGet x key default).map (f key) := by
  cases x with
  | obj kvs => exact congrArg Except.ok (get_mapFields hdefault kvs)
  | _ => rfl

/-- The same for a key whose value is left alone. -/
theorem jsonGet_mapFields_of_same {f : String → Json → Json} {key : String} {default : Json}
    (hsame : ∀ x, f key x = x) (x : Json) :
    jsonGet (x.mapFields f) key default = jsonGet x key default := by
  rw [jsonGet_mapFields (hsame default), show f key = id from funext hsame]
  cases jsonGet x key default <;> rfl

private theorem pyPair_redactPair (index : Nat) (x : Json) :
    pyPair index (redactPair x) = (pyPair index x).map fun e => (e.1, redactEntry e.1 e.2) := by
  -- Only lists can hold a wrapper as the second of two elements.
  have hleaf : ∀ key x : Json, redactWrapper x = x → (key, x) = (key, redactEntry key x) := by
    intro key x hx
    simp only [redactEntry, hx, ite_self]
  cases x with
  | arr xs =>
      match xs with
      | [key, x] =>
          simp only [redactPair, pyPair]
          split <;> rfl
      | [] => rfl
      | [key] => rfl
      | key :: x :: y :: xs => rfl
  | obj kvs =>
      simp only [redactPair, pyPair]
      split
      · exact congrArg Except.ok (hleaf _ _ rfl)
      · rfl
  | str s =>
      simp only [redactPair, pyPair]
      split
      · exact congrArg Except.ok (hleaf _ _ rfl)
      · rfl
  | surrogates codes =>
      match codes with
      | [k, v] => exact congrArg Except.ok (hleaf _ _ rfl)
      | [] => rfl
      | [k] => rfl
      | k :: v :: w :: codes => rfl
  | _ => rfl

private theorem pyPairs_redactPair (xs : List Json) :
    ∀ index, pyPairs index (xs.map redactPair) = (pyPairs index xs).map PyDict.redact := by
  induction xs with
  | nil => exact fun _ => rfl
  | cons x xs ih =>
      intro index
      rw [List.map_cons, pyPairs, pyPairs, pyPair_redactPair, ih]
      cases pyPair index x with
      | error exc => rfl
      | ok pair => cases pyPairs (index + 1) xs <;> rfl

theorem pyDict_redact (x : Json) : pyDict (redactResponse x) = (pyDict x).map PyDict.redact := by
  cases x with
  | obj kvs =>
      simp only [redactResponse, Json.mapFields, pyDict, Except.map, PyDict.redact, objDict,
        List.map_map, Function.comp_def]
  | arr xs => exact pyPairs_redactPair xs 0
  | str s =>
      have hsame : (s.toList.map fun c => Json.str (String.singleton c)).map redactPair =
          s.toList.map fun c => Json.str (String.singleton c) := by
        simp only [List.map_map, Function.comp_def, redactPair]
      have hpairs := pyPairs_redactPair (s.toList.map fun c => .str (String.singleton c)) 0
      rw [hsame] at hpairs
      exact hpairs
  | surrogates codes =>
      have hsame : (codes.map fun c => Json.surrogates [c]).map redactPair =
          codes.map fun c => Json.surrogates [c] := by
        simp only [List.map_map, Function.comp_def, redactPair]
      have hpairs := pyPairs_redactPair (codes.map fun c => .surrogates [c]) 0
      rw [hsame] at hpairs
      exact hpairs
  | _ => rfl

/-! ## The Vault client -/

def KvRead.redact : KvRead → KvRead
  | .returned response => .returned (redactResponse response)
  | read => read

/-- What the world answers during one attempt, with the payload redacted. -/
def VaultAttempt.redact (a : VaultAttempt) : VaultAttempt :=
  { a with read := fun token mountPoint subPath => (a.read token mountPoint subPath).redact }

def KvSecret.redact (secret : KvSecret) : KvSecret :=
  { secret with data := redactPayload secret.data }

theorem parseResponse_redact (d : PyDict) (path : String) :
    parseResponse d.redact path = (parseResponse d path).map KvSecret.redact := by
  have hget : d.redact.get "data" (.obj []) = redactWrapper (d.get "data" (.obj [])) := by
    unfold PyDict.get
    have hfind : d.redact.find? "data" = (PyDict.find? (d.map id) "data").map redactWrapper := by
      apply find?_of_values (a := id)
      · exact fun _ => rfl
      · intro e he
        exact if_pos (isKey_iff.mpr he)
    rw [hfind, List.map_id]
    cases d.find? "data" <;> rfl
  unfold parseResponse
  rw [hget]
  generalize d.get "data" (.obj []) = wrapper
  have hdata : jsonGet (redactWrapper wrapper) "data" (.obj []) =
      (jsonGet wrapper "data" (.obj [])).map redactPayload :=
    jsonGet_mapFields rfl wrapper
  have hmetadata : jsonGet (redactWrapper wrapper) "metadata" (.obj []) =
      jsonGet wrapper "metadata" (.obj []) :=
    jsonGet_mapFields_of_same (fun _ => rfl) wrapper
  simp only [hdata, hmetadata]
  cases jsonGet wrapper "data" (.obj []) with
  | error exc => rfl
  | ok payload =>
      cases jsonGet wrapper "metadata" (.obj []) with
      | error exc => rfl
      | ok metadata =>
          simp only [Except.map, bind, Except.bind]
          cases jsonGet metadata "version" .null with
          | error exc => rfl
          | ok version => cases jsonGet metadata "created_time" .null <;> rfl

namespace VaultClient

variable (c : VaultClient) (path : String)

theorem readKv2_redact (a : VaultAttempt) :
    c.readKv2 path a.redact = ((c.readKv2 path a).1.map PyDict.redact, (c.readKv2 path a).2) := by
  have hclient : c.getClient a.redact = c.getClient a := rfl
  unfold readKv2
  rw [hclient]
  rcases c.getClient a with ⟨result, c', outputs⟩
  cases result with
  | error exc => rfl
  | ok client =>
      simp only [VaultAttempt.redact]
      cases a.read client.token (parseKv2Path path).1 (parseKv2Path path).2 with
      | returned response =>
          simp only [KvRead.redact]
          have hdict := pyDict_redact response
          cases response with
          | null => rfl
          | _ =>
              simp only [redactResponse, Json.mapFields] at hdict ⊢
              conv_lhs => rw [hdict]
              generalize pyDict _ = read
              cases read <;> rfl
      | _ => rfl

theorem attemptRead_redact (a : VaultAttempt) :
    c.attemptRead path a.redact =
      ((c.attemptRead path a).1.map KvSecret.redact, (c.attemptRead path a).2) := by
  unfold attemptRead
  rw [readKv2_redact]
  rcases c.readKv2 path a with ⟨result, c', outputs⟩
  cases result with
  | error exc => rfl
  | ok response => exact congrArg (fun r => (r, c', outputs)) (parseResponse_redact response path)

private theorem readLoop_redact (maxRetries : Nat) (env : Nat → VaultAttempt) (remaining : Nat) :
    ∀ attempt last c,
      readLoop path maxRetries (fun i => (env i).redact) remaining attempt last c =
        ((readLoop path maxRetries env remaining attempt last c).1.map KvSecret.redact,
          (readLoop path maxRetries env remaining attempt last c).2) := by
  induction remaining with
  | zero => exact fun _ _ _ => rfl
  | succ remaining ih =>
      intro attempt last c
      unfold readLoop
      rw [attemptRead_redact]
      rcases c.attemptRead path (env attempt) with ⟨result, c', outputs⟩
      cases result with
      | ok secret => rfl
      | error exc =>
          cases exc with
          | auth text => rfl
          | secretNotFound text => rfl
          | connection text => simp only [Except.map, ih]
          | other exc => simp only [Except.map, ih]

theorem readSecret_redact (settings : Settings) (path : Option String)
    (env : Nat → VaultAttempt) :
    c.readSecret settings path (fun i => (env i).redact) =
      ((c.readSecret settings path env).1.map KvSecret.redact,
        (c.readSecret settings path env).2) :=
  readLoop_redact _ maxRetries env maxRetries 1 "None" c

end VaultClient

/-! ## The credential manager -/

def SecretData.redact (secret : SecretData) : SecretData :=
  { secret with data := redactPayload secret.data }

def Credential.redact (c : Credential) : Credential :=
  { c with apiKey := c.apiKey.redact, apiSecret := c.apiSecret.redact }

def CredentialManager.redact (m : CredentialManager) : CredentialManager :=
  { m with cache := m.cache.map Credential.redact }

theorem typed?_redact (secret : KvSecret) :
    secret.redact.typed? = secret.typed?.map SecretData.redact := by
  obtain ⟨data, version, createdTime, metadata⟩ := secret
  cases version <;> cases createdTime <;> rfl

theorem vaultRead?_redact (read : Except VaultExc KvSecret) :
    vaultRead? (read.map KvSecret.redact) =
      (vaultRead? read).map (Except.map SecretData.redact) := by
  cases read with
  | error exc => rfl
  | ok secret =>
      simp only [Except.map, vaultRead?, typed?_redact, Option.map_map]
      rfl

namespace CredentialManager

theorem getCurrentCredential_redact (m : CredentialManager) :
    m.redact.getCurrentCredential = m.getCurrentCredential.map Credential.redact := by
  simp only [getCurrentCredential, redact]
  cases m.currentVersion with
  | none => simp [Function.comp_def]
  | some v => simp

theorem getFallbackCredential_redact (m : CredentialManager) :
    m.redact.getFallbackCredential = m.getFallbackCredential.map Credential.redact := by
  simp only [getFallbackCredential, redact]
  cases m.previousVersion with
  | none => simp [← List.map_reverse]
  | some v => simp

theorem credentialStatus_redact (m : CredentialManager) (now : Rat) :
    m.redact.credentialStatus now = m.credentialStatus now := by
  unfold credentialStatus
  rw [getCurrentCredential_redact]
  cases m.getCurrentCredential <;> rfl

theorem hasValidCredentials_redact (m : CredentialManager) (now : Rat) :
    m.redact.hasValidCredentials now = m.hasValidCredentials now := by
  unfold hasValidCredentials
  rw [credentialStatus_redact]

theorem updateAgeMetric_redact (m : CredentialManager) (now : Rat) :
    m.redact.updateAgeMetric now = (m.updateAgeMetric now).redact := by
  unfold updateAgeMetric
  rw [getCurrentCredential_redact]
  cases m.getCurrentCredential <;> rfl

theorem remember_redact (m : CredentialManager) (credential : Credential) (t : LoadReadings) :
    m.redact.remember credential.redact t =
      ((m.remember credential t).1.redact, (m.remember credential t).2) := by
  have hcache : (m.cache.map Credential.redact).set (cacheKey credential.version t)
      credential.redact =
        (m.cache.set (cacheKey credential.version t) credential).map Credential.redact :=
    OrderedDict.set_map Credential.redact m.cache _ credential
  simp only [remember, redact, Credential.redact] at hcache ⊢
  rw [hcache]
  simp only [OrderedDict.overflow_map, OrderedDict.evictOver_map]

theorem setVersionGauge_redact (m : CredentialManager) (version : Option Int) :
    m.redact.setVersionGauge version = (m.setVersionGauge version).map redact := by
  cases version with
  | none => rfl
  | some v =>
      simp only [setVersionGauge]
      cases pyFloat v <;> rfl

theorem announce_redact (path : String) (oldVersion version : Option Int)
    (m : CredentialManager) (now : Rat) :
    announce path oldVersion version m.redact now =
      ((announce path oldVersion version m now).1.redact,
        (announce path oldVersion version m now).2) := by
  unfold announce
  rw [updateAgeMetric_redact]
  dsimp only
  split <;> rfl

theorem install_redact (path : String) (m : CredentialManager) (credential : Credential)
    (t : LoadReadings) :
    m.redact.install path credential.redact t =
      ((m.install path credential t).1.redact, (m.install path credential t).2) := by
  have hversion : credential.redact.version = credential.version := rfl
  have hcurrent : m.redact.currentVersion = m.currentVersion := rfl
  unfold install
  rw [remember_redact, hversion, hcurrent]
  dsimp only
  rw [setVersionGauge_redact]
  cases (m.remember credential t).1.setVersionGauge credential.version with
  | error exc => rfl
  | ok m' =>
      simp only [Except.map]
      rw [announce_redact]

def Finding.redact : Finding → Finding
  | .accepted credential => .accepted credential.redact
  | finding => finding

private theorem examine_redact (m : CredentialManager) (secret : SecretData) (t : LoadReadings) :
    m.redact.examine secret.redact t = (m.examine secret t).map Finding.redact := by
  have hkey : jsonGet secret.redact.data "api_key" (.str "") =
      (jsonGet secret.data "api_key" (.str "")).map Json.redact :=
    jsonGet_mapFields rfl secret.data
  have hsecret : jsonGet secret.redact.data "api_secret" (.str "") =
      (jsonGet secret.data "api_secret" (.str "")).map Json.redact :=
    jsonGet_mapFields rfl secret.data
  have httl : jsonGet secret.redact.data "ttl" .null = jsonGet secret.data "ttl" .null :=
    jsonGet_mapFields_of_same (fun _ => rfl) secret.data
  unfold examine
  rw [hkey, hsecret, httl]
  cases jsonGet secret.data "api_key" (.str "") with
  | error exc => rfl
  | ok apiKey =>
  cases jsonGet secret.data "api_secret" (.str "") with
  | error exc => rfl
  | ok apiSecret =>
  cases jsonGet secret.data "ttl" .null with
  | error exc => rfl
  | ok ttl =>
  simp only [Except.map, bind, Except.bind, pure, Except.pure, Json.truthy_redact]
  by_cases hmissing : (!apiKey.truthy || !apiSecret.truthy) = true
  · rw [if_pos hmissing, if_pos hmissing]
    rfl
  · rw [if_neg hmissing, if_neg hmissing]
    by_cases hversion : secret.version = m.currentVersion
    · have hsame : secret.redact.version = m.redact.currentVersion := hversion
      rw [if_pos hversion, if_pos hsame]
      rfl
    · have hother : ¬ secret.redact.version = m.redact.currentVersion := hversion
      rw [if_neg hversion, if_neg hother]
      cases parseTtl ttl <;> rfl

private theorem processSecret_redact (path : String) (m : CredentialManager)
    (secret : SecretData) (t : LoadReadings) :
    m.redact.processSecret path secret.redact t =
      ((m.processSecret path secret t).1.redact, (m.processSecret path secret t).2) := by
  unfold processSecret
  rw [examine_redact]
  cases m.examine secret t with
  | error exc => rfl
  | ok finding =>
      cases finding with
      | missingFields => rfl
      | unchanged =>
          simp only [Except.map, Finding.redact, updateAgeMetric_redact]
          rfl
      | accepted credential => exact install_redact path m credential t

/-- A load takes its course whatever the key and the secret are. -/
theorem loadCredentials_redact (path : String) (m : CredentialManager) (read : VaultRead)
    (t : LoadReadings) :
    loadCredentials path m.redact (read.map SecretData.redact) t =
      ((loadCredentials path m read t).1, (loadCredentials path m read t).2.1.redact,
        (loadCredentials path m read t).2.2) := by
  unfold loadCredentials
  cases read with
  | error text => rfl
  | ok secret =>
      simp only [Except.map, processSecret_redact]
      rcases m.processSecret path secret t with ⟨m', outputs, result⟩
      cases result <;> rfl

end CredentialManager

/-! ## The gateway client -/

def Stage.redact : Stage → Stage
  | .primary credential? => .primary (credential?.map Credential.redact)
  | .fallback => .fallback

def Pending.redact (p : Pending) : Pending :=
  { p with credential := p.credential.redact, stage := p.stage.redact }

def Progress.redact : Progress → Progress
  | .posting pending => .posting pending.redact
  | progress => progress

namespace GatewayClient

theorem beginAuthorize_redact (g : GatewayClient) (m : CredentialManager)
    (payload : PaymentRequest) (t : StartReadings) :
    g.beginAuthorize m.redact payload t =
      ((g.beginAuthorize m payload t).1,
        (g.beginAuthorize m payload t).2.map Pending.redact) := by
  unfold beginAuthorize
  dsimp only
  split
  · rfl
  · rw [CredentialManager.getCurrentCredential_redact,
      CredentialManager.getFallbackCredential_redact]
    cases m.getCurrentCredential <;> rfl

theorem resumeAuthorize_redact (g : GatewayClient) (p : Pending) (outcome : PostOutcome)
    (t : AnswerReadings) :
    g.resumeAuthorize p.redact outcome t =
      ((g.resumeAuthorize p outcome t).1, (g.resumeAuthorize p outcome t).2.1.redact,
        (g.resumeAuthorize p outcome t).2.2) := by
  have htry : g.tryAuthorize p.redact.credential p.redact.startTime outcome t =
      g.tryAuthorize p.credential p.startTime outcome t := rfl
  unfold resumeAuthorize
  rw [htry]
  rcases g.tryAuthorize p.credential p.startTime outcome t with ⟨g', attempt, outputs⟩
  obtain ⟨credential, payload, stage, startTime⟩ := p
  cases attempt with
  | rejected =>
      rcases stage with ⟨_ | fallback⟩ | _
      · rfl
      · by_cases hoid : fallback.oid ≠ credential.oid
        · have hredacted : fallback.redact.oid ≠ credential.redact.oid := hoid
          simp only [Pending.redact, Stage.redact, Option.map_some, if_pos hoid, Progress.redact]
          exact if_pos hredacted
        · have hredacted : ¬ fallback.redact.oid ≠ credential.redact.oid := hoid
          simp only [Pending.redact, Stage.redact, Option.map_some, if_neg hoid]
          exact if_neg hredacted
      · rfl
  | _ => rfl

end GatewayClient

/-! ## The authorize endpoint -/

def Advance.redact : Advance → Advance
  | .posting pending => .posting pending.redact
  | .replied reply => .replied reply

def Connector.redact (c : Connector) : Connector :=
  { c with credentialManager := c.credentialManager.map CredentialManager.redact }

namespace Connector

theorem metrics_redact (c : Connector) : c.redact.metrics = c.metrics := by
  obtain ⟨settings, manager?, client?, cache, inFlight⟩ := c
  cases manager? <;> rfl

theorem credentialStatus_redact (c : Connector) (now : Rat) :
    c.redact.credentialStatus now = c.credentialStatus now := by
  obtain ⟨settings, manager?, client?, cache, inFlight⟩ := c
  cases manager? with
  | none => rfl
  | some m => exact m.credentialStatus_redact now

theorem beginRequest_redact (c : Connector) (request : AuthorizeRequest) (t : StartReadings) :
    c.redact.beginRequest request t =
      ((c.beginRequest request t).1.redact, (c.beginRequest request t).2.1.redact,
        (c.beginRequest request t).2.2) := by
  obtain ⟨settings, manager?, client?, cache, inFlight⟩ := c
  unfold beginRequest
  simp only [redact]
  cases validateApiKey settings request.xApiKey request.requestId with
  | some refusal => rfl
  | none =>
      cases manager? with
      | none => rfl
      | some manager =>
          simp only [Option.map_some, CredentialManager.hasValidCredentials_redact]
          cases manager.hasValidCredentials t.check with
          | error exc => rfl
          | ok valid =>
          cases valid with
          | false => rfl
          | true =>
              dsimp only
              rcases checkIdempotency request.payment.idempotencyKey cache with
                ⟨_ | cached, cache⟩
              · cases client? with
                | none => rfl
                | some client =>
                    simp only [GatewayClient.beginAuthorize_redact]
                    rcases client.beginAuthorize manager request.payment t with
                      ⟨client', result⟩
                    cases result with
                    | ok pending => rfl
                    | error error => cases error <;> rfl
              · rfl

theorem finishRequest_redact (c : Connector) (payment : PaymentRequest) (uuid : String)
    (now : Rat) (progress : Progress) :
    c.redact.finishRequest payment uuid now progress.redact =
      ((c.finishRequest payment uuid now progress).1.redact,
        (c.finishRequest payment uuid now progress).2.1.redact,
        (c.finishRequest payment uuid now progress).2.2) := by
  cases progress with
  | posting pending => rfl
  | failed error => cases error <;> rfl
  | escaped exc => rfl
  | returned body =>
      simp only [Progress.redact, finishRequest]
      cases buildResponse payment body uuid now <;> rfl

theorem resumeRequest_redact (c : Connector) (client : GatewayClient) (payment : PaymentRequest)
    (p : Pending) (outcome : PostOutcome) (uuid : String) (t : AnswerReadings) :
    c.redact.resumeRequest client payment p.redact outcome uuid t =
      ((c.resumeRequest client payment p outcome uuid t).1.redact,
        (c.resumeRequest client payment p outcome uuid t).2.1.redact,
        (c.resumeRequest client payment p outcome uuid t).2.2) := by
  unfold resumeRequest
  rw [GatewayClient.resumeAuthorize_redact]
  rcases client.resumeAuthorize p outcome t with ⟨client', progress, outputs⟩
  have hfinish := finishRequest_redact { c with gatewayClient := some client' } payment uuid
    t.stamp progress
  exact congrArg (fun r : Connector × Advance × List Output × List String =>
    (r.1, r.2.1, outputs ++ r.2.2.1, r.2.2.2)) hfinish

end Connector

/-! ## The process -/

def Event.redact : Event → Event
  | .load read t => .load (read.map SecretData.redact) t
  | e => e

def Handler.redact (h : Handler) : Handler := { h with pending := h.pending.redact }

def Process.redact (p : Process) : Process :=
  { p with connector := p.connector.redact, waiting := p.waiting.map Handler.redact }

/-- The credential in the headers of a POST is all that an observation says about
the key and the secret. -/
def Obs.redact : Obs → Obs
  | .posted rid payment pending => .posted rid payment pending.redact
  | obs => obs

theorem suspended_redact (rid : Nat) (request : AuthorizeRequest) (advance : Advance) :
    suspended rid request advance.redact = (suspended rid request advance).map Handler.redact := by
  cases advance <;> rfl

theorem advanceObs_redact (rid : Nat) (request : AuthorizeRequest) (advance : Advance) :
    advanceObs rid request advance.redact = (advanceObs rid request advance).map Obs.redact := by
  cases advance with
  | posting pending => rfl
  | replied reply => cases reply <;> rfl

private theorem map_redact_of_same {γ : Type} {c : γ → Obs} (h : ∀ a, (c a).redact = c a)
    (as : List γ) : (as.map c).map Obs.redact = as.map c := by
  rw [List.map_map]
  exact List.map_congr_left (fun a _ => h a)

private theorem find?_redact (waiting : List Handler) (rid : Nat) :
    (waiting.map Handler.redact).find? (fun h => h.rid = rid) =
      (waiting.find? (fun h => h.rid = rid)).map Handler.redact := by
  rw [List.find?_map]
  rfl

private theorem filter_redact (waiting : List Handler) (rid : Nat) :
    (waiting.map Handler.redact).filter (fun h => h.rid ≠ rid) =
      (waiting.filter (fun h => h.rid ≠ rid)).map Handler.redact := by
  rw [List.filter_map]
  rfl

/-- A step of the redacted process is the redaction of the step. -/
theorem Process.step_redact (p : Process) (e : Event) :
    p.redact.step e.redact =
      (p.step e).map fun r => (r.1.redact, r.2.map Obs.redact) := by
  have houtputs : ∀ outputs : List Output,
      (outputs.map Obs.output).map Obs.redact = outputs.map Obs.output :=
    map_redact_of_same (fun _ => rfl)
  cases e with
  | load read t =>
      obtain ⟨⟨settings, manager?, client?, cache, inFlight⟩, waiting, seen⟩ := p
      cases manager? with
      | none => rfl
      | some manager =>
          simp only [Event.redact, Process.step, Process.redact, Connector.redact,
            Option.map_some, CredentialManager.loadCredentials_redact, List.map_append, houtputs]
          rfl
  | request rid request t =>
      by_cases hseen : rid ∈ p.seen
      · have hredacted : rid ∈ p.redact.seen := hseen
        simp only [Event.redact, Process.step, if_pos hseen, if_pos hredacted, Option.map_none]
      · simp only [Event.redact, Process.step, if_neg hseen, Process.redact,
          Connector.beginRequest_redact, suspended_redact, advanceObs_redact, List.map_append,
          houtputs, Option.map_some]
  | answer rid outcome uuid t =>
      have hclient : p.redact.connector.gatewayClient = p.connector.gatewayClient := rfl
      have hfind : p.redact.waiting.find? (fun h => h.rid = rid) =
          (p.waiting.find? (fun h => h.rid = rid)).map Handler.redact :=
        find?_redact p.waiting rid
      simp only [Event.redact, Process.step, hclient, hfind]
      cases p.connector.gatewayClient with
      | none => rfl
      | some client =>
          cases p.waiting.find? (fun h => h.rid = rid) with
          | none => rfl
          | some handler =>
              simp only [Option.map_some, Handler.redact, Process.redact,
                Connector.resumeRequest_redact, suspended_redact, advanceObs_redact,
                filter_redact, List.map_append, List.map_cons, houtputs,
                map_redact_of_same (c := Obs.evicted) (fun _ => rfl)]
              rfl

end PaymentConnector
