import PaymentConnector.Audit

/-!
# The Vault client

`VaultClient` reads a KV v2 secret with at most `MAX_RETRIES` attempts.  What
the world outside answers during one attempt is an input (`VaultAttempt`): the
service account's token file, the Kubernetes login, the read itself.  The
authenticated client is created on first use and kept; every function here
returns the client it leaves behind.

A secret is returned as the client parses it, with whatever the response holds
under `version` and `created_time`.
-/

namespace PaymentConnector

/-! ## Vault from the client's side -/

/-- `open(...).read()` of the service account's token. -/
inductive FileRead
  | text (content : String)
  | fileNotFound
  | raised (exc : PyExc)

/-- `client.auth.kubernetes.login(...)`: a client token, an hvac `VaultError`, or
an exception of another library. -/
inductive Login
  | ok (token : String)
  | vaultError (text : String)
  | raised (exc : PyExc)

/-- `read_secret_version(...)`: a response, an hvac exception, or an exception of
another library. -/
inductive KvRead
  | returned (response : Json)
  | invalidPath
  | forbidden
  | vaultError (text : String)
  | raised (exc : PyExc)

/-- What the world outside answers during one attempt. -/
structure VaultAttempt where
  /-- What `hvac.Client(...)` raises, if it does. -/
  construct : Option PyExc := none
  tokenFile : FileRead
  /-- The login with a role and a JWT. -/
  login : String → String → Login
  /-- The read with a client token, at a mount point and a sub-path. -/
  read : String → String → String → KvRead
  /-- The lookup of a client token. -/
  lookup : String → Except PyExc Bool

/-- An authenticated `hvac.Client`. -/
structure HvacClient where
  url : String
  token : String
  deriving DecidableEq

/-- The exceptions that reach `read_secret`: the module's own, and any other. -/
inductive VaultExc
  | connection (text : String)
  | auth (text : String)
  | secretNotFound (text : String)
  | other (exc : PyExc)

/-- `str(exc)`. -/
def VaultExc.str : VaultExc → String
  | connection text | auth text | secretNotFound text => text
  | other exc => exc.str

/-- `SecretData`, as `_parse_response` fills it. -/
structure KvSecret where
  data : Json
  version : Json
  createdTime : Json
  metadata : Json

/-! ## The client -/

structure VaultClient where
  addr : String
  authMethod : String
  role : String
  token : String
  client : Option HvacClient

def maxRetries : Nat := 3

def serviceAccountTokenPath : String := "/var/run/secrets/kubernetes.io/serviceaccount/token"

/-- `x or default`. -/
def orDefault (x : Option String) (default : String) : String :=
  match x with
  | some s => if s ≠ "" then s else default
  | none => default

/-- `_parse_kv2_path`: mount point and sub-path. -/
def parseKv2Path (path : String) : String × String :=
  let parts := path.toList.splitOn '/'
  let join (ps : List (List Char)) : String := String.ofList (['/'].intercalate ps)
  if parts.length < 3 then
    (String.ofList (parts.headD []), if 1 < parts.length then join (parts.drop 1) else "")
  else if parts[1]? = some "data".toList then
    (String.ofList (parts.headD []), join (parts.drop 2))
  else
    (String.ofList (parts.headD []), join (parts.drop 1))

/-- `_parse_response`. -/
def parseResponse (response : PyDict) (path : String) : Except VaultExc KvSecret :=
  let dataWrapper := response.get "data" (.obj [])
  let parsed : Except PyExc KvSecret := do
    let secretPayload ← jsonGet dataWrapper "data" (.obj [])
    let metadata ← jsonGet dataWrapper "metadata" (.obj [])
    let version ← jsonGet metadata "version" .null
    let createdTime ← jsonGet metadata "created_time" .null
    return { data := secretPayload, version := version, createdTime := createdTime,
             metadata := metadata }
  match parsed with
  | .ok secret => .ok secret
  | .error exc =>
      .error (.connection s!"Unexpected Vault response format for {path}: {exc.str}")

namespace VaultClient

/-- `__init__`. -/
def init (settings : Settings) (addr authMethod role token : Option String) : VaultClient where
  addr := orDefault addr settings.vaultAddr
  authMethod := orDefault authMethod settings.vaultAuthMethod
  role := orDefault role settings.vaultRole
  token := orDefault token settings.vaultToken
  client := none

/-- `_create_client`. -/
def createClient (c : VaultClient) (a : VaultAttempt) :
    Except VaultExc HvacClient × List Output :=
  match a.construct with
  | some exc => (.error (.other exc), [])
  | none =>
      if c.authMethod = "token" ∧ c.token ≠ "" then (.ok ⟨c.addr, c.token⟩, [])
      else if c.authMethod = "kubernetes" then
        match a.tokenFile with
        | .fileNotFound =>
            (.error (.connection "Kubernetes service account token not found"),
              [.log (.kubernetesSaTokenNotFound serviceAccountTokenPath)])
        | .raised exc => (.error (.other exc), [])
        | .text content =>
            match a.login c.role (String.ofList (strip content.toList)) with
            | .ok token => (.ok ⟨c.addr, token⟩, [])
            | .vaultError text =>
                (.error (.auth s!"Kubernetes auth failed: {text}"),
                  [.log (.vaultKubernetesAuthFailed text)])
            | .raised exc => (.error (.other exc), [])
      else if c.token ≠ "" then (.ok ⟨c.addr, c.token⟩, [])
      else
        (.error (.auth s!"Unsupported auth method '{c.authMethod}' and no token provided"), [])

/-- The `client` property: created on first use, then kept. -/
def getClient (c : VaultClient) (a : VaultAttempt) :
    Except VaultExc HvacClient × VaultClient × List Output :=
  match c.client with
  | some client => (.ok client, c, [])
  | none =>
      match c.createClient a with
      | (.ok client, outputs) => (.ok client, { c with client := some client }, outputs)
      | (.error exc, outputs) => (.error exc, c, outputs)

/-- `is_authenticated`. -/
def isAuthenticated (c : VaultClient) (a : VaultAttempt) : Bool × VaultClient × List Output :=
  match c.getClient a with
  | (.error _, c, outputs) => (false, c, outputs)
  | (.ok client, c, outputs) =>
      match a.lookup client.token with
      | .ok answer => (answer, c, outputs)
      | .error _ => (false, c, outputs)

/-- `_read_kv2`. -/
def readKv2 (c : VaultClient) (path : String) (a : VaultAttempt) :
    Except VaultExc PyDict × VaultClient × List Output :=
  let (mountPoint, secretSubpath) := parseKv2Path path
  match c.getClient a with
  | (.error exc, c, outputs) => (.error exc, c, outputs)
  | (.ok client, c, outputs) =>
      match a.read client.token mountPoint secretSubpath with
      | .returned .null =>
          (.error (.secretNotFound s!"Secret not found at path: {path}"), c, outputs)
      | .returned response =>
          match pyDict response with
          | .ok d => (.ok d, c, outputs)
          | .error exc => (.error (.other exc), c, outputs)
      | .invalidPath =>
          (.error (.secretNotFound s!"Secret not found at path: {path}"), c, outputs)
      | .forbidden => (.error (.auth s!"Access denied for path: {path}"), c, outputs)
      | .vaultError text => (.error (.connection s!"Vault error: {text}"), c, outputs)
      | .raised exc => (.error (.other exc), c, outputs)

/-- The body of the loop of `read_secret`, up to the secret or an exception. -/
def attemptRead (c : VaultClient) (path : String) (a : VaultAttempt) :
    Except VaultExc KvSecret × VaultClient × List Output :=
  match c.readKv2 path a with
  | (.error exc, c, outputs) => (.error exc, c, outputs)
  | (.ok response, c, outputs) => (parseResponse response path, c, outputs)

/-- `audit_credential_access` with the version that the response holds. -/
def auditSecretRead (path : String) (version : Json) : AuditEvent :=
  { auditCredentialAccess path none "success" with metadata := [("secret_version", version)] }

/-- The loop of `read_secret` with `remaining` attempts to go, the next one being
`attempt`; `last` is the text of the exception before it.  Between two attempts
the code sleeps, which nothing here can see. -/
def readLoop (path : String) (maxRetries : Nat) (env : Nat → VaultAttempt) :
    Nat → Nat → String → VaultClient → Except VaultExc KvSecret × VaultClient × List Output
  | 0, _, last, c =>
      (.error (.connection s!"Failed to read secret after {maxRetries} retries: {last}"), c,
        [.audit (auditCredentialAccess path none "failure")])
  | remaining + 1, attempt, _, c =>
      match c.attemptRead path (env attempt) with
      | (.ok secret, c, outputs) =>
          (.ok secret, c, outputs ++ [.audit (auditSecretRead path secret.version),
            .log (.secretReadSuccess path secret.version attempt)])
      | (.error (.auth text), c, outputs) =>
          (.error (.auth text), c,
            outputs ++ [.audit (auditCredentialAccess path none "failure")])
      | (.error (.secretNotFound text), c, outputs) =>
          (.error (.secretNotFound text), c,
            outputs ++ [.audit (auditCredentialAccess path none "failure")])
      | (.error exc, c, outputs) =>
          let (result, c, outputs') :=
            readLoop path maxRetries env remaining (attempt + 1) exc.str c
          (result, c,
            outputs ++ .log (.vaultReadRetry path attempt maxRetries exc.str) :: outputs')

/-- `read_secret` with `maxRetries` in place of `MAX_RETRIES`; `env` gives the
attempts by number, from 1 on. -/
def readSecretWith (maxRetries : Nat) (c : VaultClient) (settings : Settings)
    (path : Option String) (env : Nat → VaultAttempt) :
    Except VaultExc KvSecret × VaultClient × List Output :=
  readLoop (orDefault path settings.vaultSecretPath) maxRetries env maxRetries 1 "None" c

/-- `read_secret`. -/
def readSecret (c : VaultClient) (settings : Settings) (path : Option String)
    (env : Nat → VaultAttempt) : Except VaultExc KvSecret × VaultClient × List Output :=
  readSecretWith maxRetries c settings path env

/-! ## What becomes of the client -/

/-- The client is the same, or has been given its first authenticated client, one
with the property `P`. -/
def Grows (P : HvacClient → Prop) (c c' : VaultClient) : Prop :=
  c' = c ∨ c.client = none ∧ ∃ held, c' = { c with client := some held } ∧ P held

theorem Grows.mono {P Q : HvacClient → Prop} {c c' : VaultClient} (h : Grows P c c')
    (hPQ : ∀ held, P held → Q held) : Grows Q c c' := by
  rcases h with heq | ⟨hnone, held, heq, hP⟩
  · exact Or.inl heq
  · exact Or.inr ⟨hnone, held, heq, hPQ held hP⟩

/-- The rest of the client never changes. -/
theorem Grows.authMethod_eq {P : HvacClient → Prop} {c c' : VaultClient} (h : Grows P c c') :
    c'.authMethod = c.authMethod ∧ c'.role = c.role := by
  rcases h with rfl | ⟨-, held, rfl, -⟩
  · exact ⟨rfl, rfl⟩
  · exact ⟨rfl, rfl⟩

/-- What a client creates is what `_create_client` returns. -/
theorem getClient_grows (c : VaultClient) (a : VaultAttempt) :
    Grows (fun held => (c.createClient a).1 = .ok held) c (c.getClient a).2.1 := by
  unfold getClient
  cases hclient : c.client with
  | some held => exact Or.inl rfl
  | none =>
      dsimp only
      split
      · rename_i client outputs hcreate
        exact Or.inr ⟨hclient, client, rfl, by rw [hcreate]⟩
      · exact Or.inl rfl

theorem readKv2_client (c : VaultClient) (path : String) (a : VaultAttempt) :
    (c.readKv2 path a).2.1 = (c.getClient a).2.1 := by
  unfold readKv2
  dsimp only
  split
  · rename_i exc c' outputs hget
    rw [hget]
  · rename_i client c' outputs hget
    rw [hget]
    repeat' split
    all_goals rfl

theorem attemptRead_client (c : VaultClient) (path : String) (a : VaultAttempt) :
    (c.attemptRead path a).2.1 = (c.getClient a).2.1 := by
  rw [← readKv2_client c path a]
  unfold attemptRead
  split
  · rename_i exc c' outputs hread
    rw [hread]
  · rename_i response c' outputs hread
    rw [hread]

theorem isAuthenticated_client (c : VaultClient) (a : VaultAttempt) :
    (c.isAuthenticated a).2.1 = (c.getClient a).2.1 := by
  unfold isAuthenticated
  split
  · rename_i exc c' outputs hget
    rw [hget]
  · rename_i client c' outputs hget
    rw [hget]
    split <;> rfl

/-- The client of a later attempt: unless it has been created by now, it is still
the client from before. -/
private theorem readLoop_grows (path : String) (maxRetries : Nat) (env : Nat → VaultAttempt)
    (remaining : Nat) : ∀ (attempt : Nat) (last : String) (c : VaultClient),
      Grows (fun held => ∃ i, i < attempt + remaining ∧ (c.createClient (env i)).1 = .ok held) c
        (readLoop path maxRetries env remaining attempt last c).2.1 := by
  induction remaining with
  | zero => exact fun _ _ _ => Or.inl rfl
  | succ remaining ih =>
      intro attempt last c
      have hhere := c.getClient_grows (env attempt)
      rw [← attemptRead_client c path (env attempt)] at hhere
      have hgrown : Grows (fun held => ∃ i, i < attempt + (remaining + 1) ∧
          (c.createClient (env i)).1 = .ok held) c (c.attemptRead path (env attempt)).2.1 :=
        hhere.mono (fun held hcreated => ⟨attempt, by omega, hcreated⟩)
      unfold readLoop
      split
      · rename_i secret c' outputs hread
        rw [hread] at hgrown
        exact hgrown
      · rename_i text c' outputs hread
        rw [hread] at hgrown
        exact hgrown
      · rename_i text c' outputs hread
        rw [hread] at hgrown
        exact hgrown
      · rename_i exc c' outputs _ _ hread
        rw [hread] at hgrown
        have hrest := ih (attempt + 1) exc.str c'
        rcases hgrown with rfl | ⟨hnone, held, rfl, hcreated⟩
        · refine hrest.mono (fun held hcreated => ?_)
          obtain ⟨i, hi, hcreated⟩ := hcreated
          exact ⟨i, by omega, hcreated⟩
        · rcases hrest with hsame | ⟨hsome, -⟩
          · exact Or.inr ⟨hnone, held, hsame, hcreated⟩
          · cases hsome

theorem readSecret_grows (c : VaultClient) (settings : Settings) (path : Option String)
    (env : Nat → VaultAttempt) :
    Grows (fun held => ∃ i, i < maxRetries + 1 ∧ (c.createClient (env i)).1 = .ok held) c
      (c.readSecret settings path env).2.1 := by
  refine (readLoop_grows _ maxRetries env maxRetries 1 "None" c).mono (fun held hcreated => ?_)
  obtain ⟨i, hi, hcreated⟩ := hcreated
  exact ⟨i, by omega, hcreated⟩

/-- A first attempt that succeeds is the whole call. -/
theorem readSecret_of_ok {c : VaultClient} {settings : Settings} {path : Option String}
    {env : Nat → VaultAttempt} {secret : KvSecret}
    (h : (c.attemptRead (orDefault path settings.vaultSecretPath) (env 1)).1 = .ok secret) :
    (c.readSecret settings path env).1 = .ok secret := by
  unfold readSecret readSecretWith
  rw [maxRetries, readLoop]
  generalize c.attemptRead (orDefault path settings.vaultSecretPath) (env 1) = r at h ⊢
  obtain ⟨result, c', outputs⟩ := r
  dsimp only at h
  rw [h]

/-- A first attempt that is refused is the whole call. -/
theorem readSecret_of_auth {c : VaultClient} {settings : Settings} {path : Option String}
    {env : Nat → VaultAttempt} {text : String}
    (h : (c.attemptRead (orDefault path settings.vaultSecretPath) (env 1)).1 =
      .error (.auth text)) :
    (c.readSecret settings path env).1 = .error (.auth text) := by
  unfold readSecret readSecretWith
  rw [maxRetries, readLoop]
  generalize c.attemptRead (orDefault path settings.vaultSecretPath) (env 1) = r at h ⊢
  obtain ⟨result, c', outputs⟩ := r
  dsimp only at h
  rw [h]

/-- An attempt that Vault answers with a dictionary. -/
theorem attemptRead_returned {c : VaultClient} {path : String} {a : VaultAttempt}
    {held : HvacClient} {response : Json} {d : PyDict} (hget : (c.getClient a).1 = .ok held)
    (hread : a.read held.token (parseKv2Path path).1 (parseKv2Path path).2 = .returned response)
    (hdict : pyDict response = .ok d) :
    (c.attemptRead path a).1 = parseResponse d path := by
  unfold attemptRead readKv2
  generalize c.getClient a = r at hget ⊢
  obtain ⟨result, c', outputs⟩ := r
  dsimp only at hget
  subst hget
  cases response with
  | null => cases hdict
  | _ => simp only [hread, hdict]

/-- An attempt that Vault refuses. -/
theorem attemptRead_forbidden {c : VaultClient} {path : String} {a : VaultAttempt}
    {held : HvacClient} (hget : (c.getClient a).1 = .ok held)
    (hread : a.read held.token (parseKv2Path path).1 (parseKv2Path path).2 = .forbidden) :
    (c.attemptRead path a).1 = .error (.auth s!"Access denied for path: {path}") := by
  unfold attemptRead readKv2
  generalize c.getClient a = r at hget ⊢
  obtain ⟨result, c', outputs⟩ := r
  dsimp only at hget
  subst hget
  simp only [hread]

end VaultClient

end PaymentConnector
