import PaymentConnector.LoadAudit

/-!
# Retries of a Vault read

`read_secret` for every bound in place of `MAX_RETRIES`.  What one attempt comes to is
classified by what happens during it, and the whole read by the list of the results of
its attempts: every attempt but the last one failed in a way that is tried again.

## Main results

* `VaultClient.attemptRead_outcome` — the outcomes of one attempt.
* `VaultClient.readSecret_retries` — the attempts, the result and the audit of a read.
-/

namespace PaymentConnector

instance VaultExc.decidableTransient : (exc : VaultExc) → Decidable exc.Transient
  | .connection _ | .other _ => isTrue trivial
  | .auth _ | .secretNotFound _ => isFalse id

namespace VaultClient

/-! ## One attempt -/

/-- The ways in which there is no authenticated client. -/
inductive CreationFails (c : VaultClient) (a : VaultAttempt) : VaultExc → Prop
  | construct (exc : PyExc) (h : a.construct = some exc) : CreationFails c a (.other exc)
  | noTokenFile (h : a.tokenFile = .fileNotFound) :
      CreationFails c a (.connection "Kubernetes service account token not found")
  | tokenFile (exc : PyExc) (h : a.tokenFile = .raised exc) : CreationFails c a (.other exc)
  | loginRefused (content text : String) (hfile : a.tokenFile = .text content)
      (h : a.login c.role (String.ofList (strip content.toList)) = .vaultError text) :
      CreationFails c a (.auth s!"Kubernetes auth failed: {text}")
  | loginRaised (content : String) (exc : PyExc) (hfile : a.tokenFile = .text content)
      (h : a.login c.role (String.ofList (strip content.toList)) = .raised exc) :
      CreationFails c a (.other exc)
  | noMethod (hmethod : c.authMethod ≠ "kubernetes") (htoken : ¬ c.token ≠ "") :
      CreationFails c a
        (.auth s!"Unsupported auth method '{c.authMethod}' and no token provided")

theorem createClient_fails {c : VaultClient} {a : VaultAttempt} {exc : VaultExc}
    (h : (c.createClient a).1 = .error exc) : CreationFails c a exc := by
  unfold createClient at h
  split at h
  · rename_i pyExc hconstruct
    cases h
    exact .construct pyExc hconstruct
  · split at h
    · cases h
    · split at h
      · split at h
        · rename_i hfile
          cases h
          exact .noTokenFile hfile
        · rename_i pyExc hfile
          cases h
          exact .tokenFile pyExc hfile
        · rename_i content hfile
          split at h
          · cases h
          · rename_i text hlogin
            cases h
            exact .loginRefused content text hfile hlogin
          · rename_i pyExc hlogin
            cases h
            exact .loginRaised content pyExc hfile hlogin
      · rename_i hmethod
        split at h
        · cases h
        · rename_i htoken
          cases h
          exact .noMethod hmethod htoken

/-- A client that is held is used; otherwise one is created. -/
theorem getClient_fails {c : VaultClient} {a : VaultAttempt} {exc : VaultExc}
    (h : (c.getClient a).1 = .error exc) : c.client = none ∧ CreationFails c a exc := by
  unfold getClient at h
  cases hclient : c.client with
  | some held =>
      rw [hclient] at h
      cases h
  | none =>
      rw [hclient] at h
      refine ⟨rfl, createClient_fails ?_⟩
      dsimp only at h
      split at h
      · cases h
      · rename_i exc' outputs hcreate
        cases h
        rw [hcreate]

/-- What the authenticated client is answered, when there is one. -/
def answer (c : VaultClient) (path : String) (a : VaultAttempt) : Except VaultExc KvRead :=
  match (c.getClient a).1 with
  | .ok held => .ok (a.read held.token (parseKv2Path path).1 (parseKv2Path path).2)
  | .error exc => .error exc

/-- What one attempt comes to, by what happens during it. -/
inductive Outcome (path : String) (c : VaultClient) (a : VaultAttempt) :
    Except VaultExc KvSecret → Prop
  | noClient (exc : VaultExc) (hclient : c.client = none) (h : CreationFails c a exc) :
      Outcome path c a (.error exc)
  | secret (response : Json) (d : PyDict) (secret : KvSecret)
      (hread : c.answer path a = .ok (.returned response)) (hdict : pyDict response = .ok d)
      (hparse : parseResponse d path = .ok secret) : Outcome path c a (.ok secret)
  | malformed (response : Json) (d : PyDict) (exc : PyExc)
      (hread : c.answer path a = .ok (.returned response)) (hdict : pyDict response = .ok d)
      (hparse : parseResponse d path =
        .error (.connection s!"Unexpected Vault response format for {path}: {exc.str}")) :
      Outcome path c a
        (.error (.connection s!"Unexpected Vault response format for {path}: {exc.str}"))
  | noDict (response : Json) (exc : PyExc) (hread : c.answer path a = .ok (.returned response))
      (hdict : pyDict response = .error exc) : Outcome path c a (.error (.other exc))
  | nothing (hread : c.answer path a = .ok (.returned .null)) :
      Outcome path c a (.error (.secretNotFound s!"Secret not found at path: {path}"))
  | invalidPath (hread : c.answer path a = .ok .invalidPath) :
      Outcome path c a (.error (.secretNotFound s!"Secret not found at path: {path}"))
  | forbidden (hread : c.answer path a = .ok .forbidden) :
      Outcome path c a (.error (.auth s!"Access denied for path: {path}"))
  | vaultError (text : String) (hread : c.answer path a = .ok (.vaultError text)) :
      Outcome path c a (.error (.connection s!"Vault error: {text}"))
  | raised (exc : PyExc) (hread : c.answer path a = .ok (.raised exc)) :
      Outcome path c a (.error (.other exc))

/-- A response is parsed, or has the wrong structure. -/
theorem parseResponse_cases (response : PyDict) (path : String) :
    (∃ secret, parseResponse response path = .ok secret) ∨
      ∃ exc : PyExc, parseResponse response path =
        .error (.connection s!"Unexpected Vault response format for {path}: {exc.str}") := by
  unfold parseResponse
  dsimp only
  split
  · rename_i secret _
    exact Or.inl ⟨secret, rfl⟩
  · rename_i exc _
    exact Or.inr ⟨exc, rfl⟩

/-- An attempt with a client comes to what the answer makes of it. -/
private theorem outcome_of_answer {path : String} {c : VaultClient} {a : VaultAttempt}
    {held : HvacClient} (h : (c.getClient a).1 = .ok held) :
    Outcome path c a (c.attemptRead path a).1 := by
  have hanswer : c.answer path a =
      .ok (a.read held.token (parseKv2Path path).1 (parseKv2Path path).2) := by
    rw [answer, h]
  unfold attemptRead readKv2
  generalize c.getClient a = r at h ⊢
  obtain ⟨result, c', outputs⟩ := r
  subst h
  dsimp only
  generalize a.read held.token (parseKv2Path path).1 (parseKv2Path path).2 = read at hanswer ⊢
  cases read with
  | invalidPath => exact .invalidPath hanswer
  | forbidden => exact .forbidden hanswer
  | vaultError text => exact .vaultError text hanswer
  | raised exc => exact .raised exc hanswer
  | returned response =>
      by_cases hnull : response = .null
      · rw [hnull] at hanswer ⊢
        exact .nothing hanswer
      · cases hdict : pyDict response with
        | error exc =>
            have h := Outcome.noDict response exc hanswer hdict
            cases response <;> first | exact absurd rfl hnull | simpa only [hdict] using h
        | ok d =>
            have h : Outcome path c a (parseResponse d path) := by
              rcases parseResponse_cases d path with ⟨secret, hparse⟩ | ⟨exc, hparse⟩
              · rw [hparse]
                exact .secret response d secret hanswer hdict hparse
              · rw [hparse]
                exact .malformed response d exc hanswer hdict hparse
            cases response <;> first | exact absurd rfl hnull | simpa only [hdict] using h

theorem attemptRead_outcome (path : String) (c : VaultClient) (a : VaultAttempt) :
    Outcome path c a (c.attemptRead path a).1 := by
  cases hget : (c.getClient a).1 with
  | ok held => exact outcome_of_answer hget
  | error exc =>
      obtain ⟨hclient, hcreation⟩ := getClient_fails hget
      have herror : (c.attemptRead path a).1 = .error exc := by
        unfold attemptRead readKv2
        generalize c.getClient a = r at hget ⊢
        obtain ⟨result, c', outputs⟩ := r
        subst hget
        rfl
      rw [herror]
      exact .noClient exc hclient hcreation

/-! ## The attempts of a read -/

/-- The results that are tried again. -/
def Retried : Except VaultExc KvSecret → Prop
  | .ok _ => False
  | .error exc => exc.Transient

instance : (result : Except VaultExc KvSecret) → Decidable (Retried result)
  | .ok _ => isFalse id
  | .error exc => exc.decidableTransient

/-- The results of the attempts from `attempt` on, with `remaining` of them to go. -/
def attempts (path : String) (env : Nat → VaultAttempt) :
    Nat → Nat → VaultClient → List (Except VaultExc KvSecret)
  | 0, _, _ => []
  | remaining + 1, attempt, c =>
      (c.attemptRead path (env attempt)).1 ::
        if Retried (c.attemptRead path (env attempt)).1 then
          attempts path env remaining (attempt + 1) (c.attemptRead path (env attempt)).2.1
        else []

/-- How a read ends after the attempts with the results `rs`: with the secret or the
exception of the last one, or because there have been `bound` of them. -/
inductive Ends (n bound : Nat) (rs : List (Except VaultExc KvSecret)) :
    Except VaultExc KvSecret → Prop
  | returned (secret : KvSecret) (hlast : rs.getLast? = some (.ok secret)) :
      Ends n bound rs (.ok secret)
  | raised (exc : VaultExc) (hlast : rs.getLast? = some (.error exc))
      (hfinal : ¬ exc.Transient) : Ends n bound rs (.error exc)
  | exhausted (exc : VaultExc) (hlast : rs.getLast? = some (.error exc))
      (htransient : exc.Transient) (hlength : rs.length = bound) :
      Ends n bound rs
        (.error (.connection s!"Failed to read secret after {n} retries: {exc.str}"))

/-- What the loop writes after an attempt that ends it. -/
def closingOutputs (path : String) (attempt : Nat) : Except VaultExc KvSecret → List Output
  | .ok secret =>
      [.audit (auditSecretRead path secret.version),
        .log (.secretReadSuccess path secret.version attempt)]
  | .error _ => [.audit (auditCredentialAccess path none "failure")]

section Loop

variable {path : String} {n : Nat} {env : Nat → VaultAttempt} {remaining attempt : Nat}
  {last : String} {c : VaultClient}

/-- An attempt that is not tried again ends the loop. -/
theorem readLoop_of_final (h : ¬ Retried (c.attemptRead path (env attempt)).1) :
    readLoop path n env (remaining + 1) attempt last c =
      ((c.attemptRead path (env attempt)).1, (c.attemptRead path (env attempt)).2.1,
        (c.attemptRead path (env attempt)).2.2 ++
          closingOutputs path attempt (c.attemptRead path (env attempt)).1) := by
  rw [readLoop]
  generalize c.attemptRead path (env attempt) = r at h ⊢
  obtain ⟨result, c', outputs⟩ := r
  cases result with
  | ok secret => rfl
  | error exc =>
      cases exc with
      | auth text => rfl
      | secretNotFound text => rfl
      | connection text => exact absurd trivial h
      | other exc => exact absurd trivial h

/-- After any other attempt the loop goes on with the exception's text. -/
theorem readLoop_of_transient {exc : VaultExc}
    (h : (c.attemptRead path (env attempt)).1 = .error exc) (htransient : exc.Transient) :
    readLoop path n env (remaining + 1) attempt last c =
      ((readLoop path n env remaining (attempt + 1) exc.str
          (c.attemptRead path (env attempt)).2.1).1,
        (readLoop path n env remaining (attempt + 1) exc.str
          (c.attemptRead path (env attempt)).2.1).2.1,
        (c.attemptRead path (env attempt)).2.2 ++
          .log (.vaultReadRetry path attempt n exc.str) ::
            (readLoop path n env remaining (attempt + 1) exc.str
              (c.attemptRead path (env attempt)).2.1).2.2) := by
  rw [readLoop]
  generalize c.attemptRead path (env attempt) = r at h ⊢
  obtain ⟨result, c', outputs⟩ := r
  subst h
  cases exc with
  | auth text => exact absurd htransient id
  | secretNotFound text => exact absurd htransient id
  | connection text => rfl
  | other exc => rfl

theorem attempts_of_final (h : ¬ Retried (c.attemptRead path (env attempt)).1) :
    attempts path env (remaining + 1) attempt c = [(c.attemptRead path (env attempt)).1] := by
  rw [attempts, if_neg h]

theorem attempts_of_retried (h : Retried (c.attemptRead path (env attempt)).1) :
    attempts path env (remaining + 1) attempt c =
      (c.attemptRead path (env attempt)).1 ::
        attempts path env remaining (attempt + 1) (c.attemptRead path (env attempt)).2.1 := by
  rw [attempts, if_pos h]

end Loop

/-- A result that is tried again is a transient exception. -/
theorem exists_of_retried {result : Except VaultExc KvSecret} (h : Retried result) :
    ∃ exc : VaultExc, result = .error exc ∧ exc.Transient := by
  cases result with
  | ok secret => exact absurd h id
  | error exc => exact ⟨exc, rfl, h⟩

/-- A last attempt that is not tried again ends the read with its result. -/
theorem Ends.of_final {n bound : Nat} {result : Except VaultExc KvSecret}
    (h : ¬ Retried result) : Ends n bound [result] result := by
  cases result with
  | ok secret => exact .returned secret rfl
  | error exc => exact .raised exc rfl h

/-- An attempt before the others leaves the end as it is. -/
theorem Ends.cons {n bound : Nat} {rs : List (Except VaultExc KvSecret)}
    {result : Except VaultExc KvSecret} (first : Except VaultExc KvSecret)
    (h : Ends n bound rs result) : Ends n (bound + 1) (first :: rs) result := by
  have hlast : ∀ r, rs.getLast? = some r → (first :: rs).getLast? = some r := by
    intro r hr
    rw [List.getLast?_cons, hr]
    rfl
  cases h with
  | returned secret hr => exact .returned secret (hlast _ hr)
  | raised exc hr hfinal => exact .raised exc (hlast _ hr) hfinal
  | exhausted exc hr htransient hlength =>
      exact .exhausted exc (hlast _ hr) htransient (congrArg (· + 1) hlength)

section Runs

variable (path : String) (n : Nat) (env : Nat → VaultAttempt)

theorem attempts_length (remaining : Nat) : ∀ (attempt : Nat) (c : VaultClient),
    (attempts path env remaining attempt c).length ≤ remaining := by
  induction remaining with
  | zero => exact fun _ _ => Nat.le_refl 0
  | succ remaining ih =>
      intro attempt c
      by_cases h : Retried (c.attemptRead path (env attempt)).1
      · rw [attempts_of_retried h]
        exact Nat.succ_le_succ (ih _ _)
      · rw [attempts_of_final h]
        exact Nat.succ_le_succ (Nat.zero_le _)

theorem attempts_retried (remaining : Nat) : ∀ (attempt : Nat) (c : VaultClient),
    ∀ result ∈ (attempts path env remaining attempt c).dropLast, Retried result := by
  induction remaining with
  | zero => exact fun _ _ _ h => absurd h List.not_mem_nil
  | succ remaining ih =>
      intro attempt c result hresult
      by_cases h : Retried (c.attemptRead path (env attempt)).1
      · rw [attempts_of_retried h] at hresult
        cases hrest : attempts path env remaining (attempt + 1)
            (c.attemptRead path (env attempt)).2.1 with
        | nil =>
            rw [hrest] at hresult
            exact absurd hresult List.not_mem_nil
        | cons next rest =>
            rw [hrest, List.dropLast_cons_cons, ← hrest] at hresult
            rcases List.mem_cons.mp hresult with rfl | hlater
            · exact h
            · exact ih _ _ result hlater
      · rw [attempts_of_final h] at hresult
        exact absurd hresult List.not_mem_nil

/-- The loop ends as its attempts say. -/
theorem readLoop_ends (remaining : Nat) : ∀ (attempt : Nat) (last : String) (c : VaultClient),
    Ends n (remaining + 1) (attempts path env (remaining + 1) attempt c)
      (readLoop path n env (remaining + 1) attempt last c).1 := by
  induction remaining with
  | zero =>
      intro attempt last c
      by_cases h : Retried (c.attemptRead path (env attempt)).1
      · obtain ⟨exc, hexc, htransient⟩ := exists_of_retried h
        rw [readLoop_of_transient hexc htransient, attempts_of_retried h, hexc]
        exact .exhausted exc rfl htransient rfl
      · rw [readLoop_of_final h, attempts_of_final h]
        exact .of_final h
  | succ remaining ih =>
      intro attempt last c
      by_cases h : Retried (c.attemptRead path (env attempt)).1
      · obtain ⟨exc, hexc, htransient⟩ := exists_of_retried h
        rw [readLoop_of_transient hexc htransient, attempts_of_retried h]
        exact (ih _ _ _).cons _
      · rw [readLoop_of_final h, attempts_of_final h]
        exact .of_final h

/-- What happens after the attempts that are made is never asked for. -/
theorem readLoop_unused (env' : Nat → VaultAttempt) (remaining : Nat) :
    ∀ (attempt : Nat) (last : String) (c : VaultClient),
      (∀ i, attempt ≤ i → i < attempt + (attempts path env remaining attempt c).length →
        env' i = env i) →
      readLoop path n env' remaining attempt last c =
        readLoop path n env remaining attempt last c := by
  induction remaining with
  | zero => exact fun _ _ _ _ => rfl
  | succ remaining ih =>
      intro attempt last c hsame
      by_cases h : Retried (c.attemptRead path (env attempt)).1
      · obtain ⟨exc, hexc, htransient⟩ := exists_of_retried h
        rw [attempts_of_retried h, List.length_cons] at hsame
        have hhere : env' attempt = env attempt := hsame attempt (Nat.le_refl _) (by omega)
        have hrest := ih (attempt + 1) exc.str (c.attemptRead path (env attempt)).2.1
          (fun i hlow hhigh => hsame i (by omega) (by omega))
        have hexc' : (c.attemptRead path (env' attempt)).1 = .error exc := by
          rw [hhere]
          exact hexc
        rw [readLoop_of_transient hexc' htransient, readLoop_of_transient hexc htransient, hhere,
          hrest]
      · rw [attempts_of_final h] at hsame
        have hhere : env' attempt = env attempt :=
          hsame attempt (Nat.le_refl _) (Nat.lt_succ_self _)
        have h' : ¬ Retried (c.attemptRead path (env' attempt)).1 := by
          rw [hhere]
          exact h
        rw [readLoop_of_final h', readLoop_of_final h, hhere]

end Runs

/-! ## The whole read -/

/-- For every bound and whatever the attempts come to: an attempt has one of the outcomes
above; the read makes attempts up to the first that is not tried again, at most `n` of
them, and asks for nothing after those; it returns the secret of the last one, raises its
exception, or gives up after `n`; and it writes one event with the outcome it has. -/
theorem readSecret_retries (n : Nat) (hn : 1 ≤ n) (c : VaultClient) (settings : Settings)
    (path : Option String) (env : Nat → VaultAttempt) :
    (∀ (p : String) (c' : VaultClient) (a : VaultAttempt),
        Outcome p c' a (c'.attemptRead p a).1) ∧
      attempts (orDefault path settings.vaultSecretPath) env n 1 c ≠ [] ∧
      (attempts (orDefault path settings.vaultSecretPath) env n 1 c).length ≤ n ∧
      (∀ result ∈ (attempts (orDefault path settings.vaultSecretPath) env n 1 c).dropLast,
        Retried result) ∧
      (∀ env' : Nat → VaultAttempt,
        (∀ i, 1 ≤ i →
          i ≤ (attempts (orDefault path settings.vaultSecretPath) env n 1 c).length →
            env' i = env i) →
        readSecretWith n c settings path env' = readSecretWith n c settings path env) ∧
      Ends n n (attempts (orDefault path settings.vaultSecretPath) env n 1 c)
        (readSecretWith n c settings path env).1 ∧
      auditsOf (readSecretWith n c settings path env).2.2 =
        [readAudit (orDefault path settings.vaultSecretPath)
          (readSecretWith n c settings path env).1] := by
  obtain ⟨m, rfl⟩ : ∃ m, n = m + 1 := ⟨n - 1, by omega⟩
  refine ⟨attemptRead_outcome, List.cons_ne_nil _ _, attempts_length _ env (m + 1) 1 c,
    attempts_retried _ env (m + 1) 1 c, fun env' hsame => ?_, readLoop_ends _ (m + 1) env m 1 _ c,
    readSecretWith_audits (m + 1) c settings path env⟩
  exact readLoop_unused _ (m + 1) env env' (m + 1) 1 "None" c
    (fun i hlow hhigh => hsame i hlow (by omega))

/-- Vault cannot be reached during the first attempt, and answers the second. -/
def retriedAttempts (i : Nat) : VaultAttempt :=
  if i = 1 then
    { CredentialManager.payloadAttempt .null with
      read := fun _ _ _ => .raised (.other "connection refused") }
  else
    CredentialManager.payloadAttempt (.obj [("api_key", .str "key-v1"), ("api_secret", .str "s")])

/-- With a bound of one the read gives up after the first of them. -/
theorem readSecret_retries_one :
    Ends 1 1 (attempts sampleSettings.vaultSecretPath retriedAttempts 1 1
          CredentialManager.sampleVaultClient)
        (readSecretWith 1 CredentialManager.sampleVaultClient sampleSettings none
          retriedAttempts).1 ∧
      (readSecretWith 1 CredentialManager.sampleVaultClient sampleSettings none
          retriedAttempts).1 =
        .error (.connection "Failed to read secret after 1 retries: connection refused") :=
  ⟨(readSecret_retries 1 (Nat.le_refl 1) CredentialManager.sampleVaultClient sampleSettings none
    retriedAttempts).2.2.2.2.2.1, rfl⟩

end VaultClient

end PaymentConnector
