import Mathlib.Data.Fintype.EquivFin
import PaymentConnector.Library.Machine
import PaymentConnector.VaultClient

/-!
# Recovering from an expired Vault token

The session of a `VaultClient` with Vault: reads, readiness probes, and client
tokens that expire.  A read with an expired token is refused, a login yields a
token that is not expired.  The client keeps the first authenticated client it
gets, and a refusal is not retried, so once the token it holds has expired no
read succeeds again; as long as that does not happen every read recovers from
whatever failed before.

An expiration in the middle of a call is one right after it: what Vault answers
to a token that has not expired is not constrained.

## Main results

* `VaultSession.recovers_iff` — one state: the next read succeeds unless the
  token held has expired.
* `VaultSession.throughout_recovers_iff` — the exact condition over whole runs.
-/

namespace PaymentConnector

open Library Library.Machine

/-- The client and the client tokens that Vault no longer accepts. -/
structure VaultSession where
  client : VaultClient
  expired : List String

inductive VaultEvent
  | read (path : Option String) (env : Nat → VaultAttempt)
  | probe (a : VaultAttempt)
  | expire (token : String)

inductive VaultObs
  | output (output : Output)
  | returned (secret : KvSecret)
  | raised (exc : VaultExc)
  | authenticated (answer : Bool)

/-- Whether an answer comes from a Vault that is up. -/
def KvRead.answered : KvRead → Bool
  | .vaultError _ | .raised _ => false
  | _ => true

/-- The attempt as Vault answers it once the given tokens have expired. -/
def VaultAttempt.under (a : VaultAttempt) (expired : List String) : VaultAttempt :=
  { a with
    read := fun token mountPoint subPath =>
      if token ∈ expired ∧ (a.read token mountPoint subPath).answered = true then .forbidden
      else a.read token mountPoint subPath }

/-- The token that a login of the attempt yields, if it gets so far. -/
def VaultAttempt.issued? (a : VaultAttempt) (role : String) : Option String :=
  match a.tokenFile with
  | .text content =>
      match a.login role (String.ofList (strip content.toList)) with
      | .ok token => some token
      | _ => none
  | _ => none

/-- A login of the attempt yields a token that has not expired. -/
def VaultAttempt.issuesFresh (a : VaultAttempt) (role : String) (expired : List String) : Bool :=
  match a.issued? role with
  | some token => token ∉ expired
  | none => true

/-- What a call of `read_secret` shows. -/
def readObs : Except VaultExc KvSecret → List VaultObs
  | .ok secret => [.returned secret]
  | .error exc => [.raised exc]

namespace VaultSession

/-- A client in kubernetes mode before its first use. -/
def start (client : VaultClient) : VaultSession := ⟨{ client with client := none }, []⟩

/-- One call of the client, or the expiration of a token. -/
def step (settings : Settings) (s : VaultSession) : VaultEvent →
    Option (VaultSession × List VaultObs)
  | .read path env =>
      if ∀ i, i < maxRetries + 1 → (env i).issuesFresh s.client.role s.expired = true then
        let (result, client, outputs) :=
          s.client.readSecret settings path (fun i => (env i).under s.expired)
        some ({ s with client := client }, outputs.map .output ++ readObs result)
      else none
  | .probe a =>
      if a.issuesFresh s.client.role s.expired = true then
        let (answer, client, outputs) := s.client.isAuthenticated (a.under s.expired)
        some ({ s with client := client }, outputs.map .output ++ [.authenticated answer])
      else none
  | .expire token => some ({ s with expired := token :: s.expired }, [])

/-- The client holds an expired token. -/
def Stuck (s : VaultSession) : Prop :=
  ∃ held, s.client.client = some held ∧ held.token ∈ s.expired

/-- Vault is up, accepts a login for the client's role and holds `secret` at the
path: it answers every token that has not expired with it. -/
structure Healthy (s : VaultSession) (path : String) (secret : KvSecret) (a : VaultAttempt) :
    Prop where
  construct : a.construct = none
  login : ∃ token, a.issued? s.client.role = some token ∧ ¬ token ∈ s.expired
  holds : ∀ token, ¬ token ∈ s.expired → ∃ response d,
    a.read token (parseKv2Path path).1 (parseKv2Path path).2 = .returned response ∧
      pyDict response = .ok d ∧ parseResponse d path = .ok secret

/-- The next `read_secret` against a healthy Vault returns the secret. -/
def Recovers (settings : Settings) (s : VaultSession) : Prop :=
  ∀ (path : Option String) (secret : KvSecret) (env : Nat → VaultAttempt),
    (∀ i, s.Healthy (orDefault path settings.vaultSecretPath) secret (env i)) →
      (s.client.readSecret settings path (fun i => (env i).under s.expired)).1 = .ok secret

/-- The token held by the client expires. -/
def ExpiresHeld (s : VaultSession) : VaultEvent → Prop
  | .expire token => ∃ held, s.client.client = some held ∧ held.token = token
  | _ => False

/-! ## One state -/

/-- In kubernetes mode a client is created with the token of the login. -/
theorem createClient_kubernetes {c : VaultClient} {a : VaultAttempt} {held : HvacClient}
    (hmode : c.authMethod = "kubernetes") :
    (c.createClient a).1 = .ok held ↔
      a.construct = none ∧ a.issued? c.role = some held.token ∧ held.url = c.addr := by
  have hnot : ¬ (c.authMethod = "token" ∧ c.token ≠ "") := by
    rw [hmode]
    exact fun h => absurd h.1 (by decide)
  unfold VaultClient.createClient VaultAttempt.issued?
  cases a.construct with
  | some exc => simp
  | none =>
      dsimp only
      rw [if_neg hnot, if_pos hmode]
      cases a.tokenFile with
      | fileNotFound => simp
      | raised exc => simp
      | text content =>
          dsimp only
          cases a.login c.role (String.ofList (strip content.toList)) with
          | ok token =>
              obtain ⟨url, token'⟩ := held
              simp only [Except.ok.injEq, HvacClient.mk.injEq, Option.some.injEq, true_and]
              exact ⟨fun h => ⟨h.2, h.1.symm⟩, fun h => ⟨h.2.symm, h.1⟩⟩
          | vaultError text => simp
          | raised exc => simp

variable {settings : Settings} {s s' : VaultSession} {e : VaultEvent} {obs : List VaultObs}

/-- What the first attempt against a healthy Vault does with a token that has not
expired. -/
private theorem attemptRead_of_healthy {path : String} {secret : KvSecret} {a : VaultAttempt}
    {held : HvacClient} (hhealthy : s.Healthy path secret a)
    (hget : (s.client.getClient (a.under s.expired)).1 = .ok held)
    (hfresh : ¬ held.token ∈ s.expired) :
    (s.client.attemptRead path (a.under s.expired)).1 = .ok secret := by
  obtain ⟨response, d, hread, hdict, hparse⟩ := hhealthy.holds held.token hfresh
  have hunder : (a.under s.expired).read held.token (parseKv2Path path).1
      (parseKv2Path path).2 = .returned response := by
    rw [← hread]
    exact if_neg (fun h => hfresh h.1)
  rw [VaultClient.attemptRead_returned hget hunder hdict]
  exact hparse

/-- There is always a token that has not expired. -/
private theorem exists_fresh (expired : List String) : ∃ token, ¬ token ∈ expired := by
  have hinfinite : Infinite String := by
    apply Infinite.of_injective (fun n => String.ofList (List.replicate n 'x'))
    intro m n h
    have hlength := congrArg (fun t => t.toList.length) h
    simpa using hlength
  obtain ⟨token, htoken⟩ := Infinite.exists_notMem_finset expired.toFinset
  exact ⟨token, fun hin => htoken (List.mem_toFinset.mpr hin)⟩

/-- A healthy Vault that issues the given token and holds an empty payload. -/
def healthyAttempt (token : String) : VaultAttempt where
  tokenFile := .text "jwt"
  login := fun _ _ => .ok token
  read := fun _ _ _ => .returned (.obj [("data", .obj [("data", .obj []), ("metadata", .obj [])])])
  lookup := fun _ => .ok true

private theorem healthyAttempt_healthy {token : String} (hfresh : ¬ token ∈ s.expired)
    (path : String) :
    s.Healthy path ⟨.obj [], .null, .null, .obj []⟩ (healthyAttempt token) where
  construct := rfl
  login := ⟨token, rfl, hfresh⟩
  holds := fun _ _ => ⟨_, _, rfl, rfl, rfl⟩

/-- The next read against a healthy Vault returns the secret exactly when the
client does not hold an expired token. -/
theorem recovers_iff (hmode : s.client.authMethod = "kubernetes") :
    s.Recovers settings ↔ ¬ s.Stuck := by
  constructor
  · intro hrecovers hstuck
    obtain ⟨held, hheld, hexpired⟩ := hstuck
    obtain ⟨token, hfresh⟩ := exists_fresh s.expired
    have hok := hrecovers none _ (fun _ => healthyAttempt token)
      (fun _ => healthyAttempt_healthy hfresh _)
    have hget : (s.client.getClient ((healthyAttempt token).under s.expired)).1 = .ok held := by
      unfold VaultClient.getClient
      rw [hheld]
    have hforbidden : ((healthyAttempt token).under s.expired).read held.token
        (parseKv2Path settings.vaultSecretPath).1 (parseKv2Path settings.vaultSecretPath).2 =
          .forbidden :=
      if_pos ⟨hexpired, rfl⟩
    have hdenied : (s.client.readSecret settings none
        (fun _ => (healthyAttempt token).under s.expired)).1 =
          .error (.auth s!"Access denied for path: {settings.vaultSecretPath}") :=
      VaultClient.readSecret_of_auth (VaultClient.attemptRead_forbidden hget hforbidden)
    rw [hdenied] at hok
    cases hok
  · intro hfree path secret env hhealthy
    have hfirst := hhealthy 1
    have hget : ∃ held, (s.client.getClient ((env 1).under s.expired)).1 = .ok held ∧
        ¬ held.token ∈ s.expired := by
      unfold VaultClient.getClient
      cases hclient : s.client.client with
      | some held => exact ⟨held, rfl, fun hin => hfree ⟨held, hclient, hin⟩⟩
      | none =>
          obtain ⟨token, hissued, hfresh⟩ := hfirst.login
          have hcreate : (s.client.createClient ((env 1).under s.expired)).1 =
              .ok ⟨s.client.addr, token⟩ :=
            (createClient_kubernetes hmode).mpr ⟨hfirst.construct, hissued, rfl⟩
          refine ⟨⟨s.client.addr, token⟩, ?_, hfresh⟩
          generalize s.client.createClient ((env 1).under s.expired) = r at hcreate ⊢
          obtain ⟨result, outputs⟩ := r
          dsimp only at hcreate
          subst hcreate
          rfl
    obtain ⟨held, hheld, hfresh⟩ := hget
    exact VaultClient.readSecret_of_ok (attemptRead_of_healthy hfirst hheld hfresh)

/-! ## Runs -/

/-- What a call leaves behind: the client from before, or its first one, created
with a token that has not expired. -/
private def KeepsToken (s : VaultSession) (c : VaultClient) : Prop :=
  VaultClient.Grows (fun held => ¬ held.token ∈ s.expired) s.client c

private theorem KeepsToken.of_created {c : VaultClient} {n : Nat} {env : Nat → VaultAttempt}
    (hmode : s.client.authMethod = "kubernetes")
    (hissued : ∀ i, i < n → (env i).issuesFresh s.client.role s.expired = true)
    (h : VaultClient.Grows (fun held => ∃ i, i < n ∧
      (s.client.createClient ((env i).under s.expired)).1 = .ok held) s.client c) :
    KeepsToken s c := by
  apply h.mono
  intro held hcreated
  obtain ⟨i, hi, hcreate⟩ := hcreated
  have htoken := ((createClient_kubernetes hmode).mp hcreate).2.1
  have hfresh := hissued i hi
  unfold VaultAttempt.issuesFresh at hfresh
  rw [show (env i).issued? s.client.role = some held.token from htoken] at hfresh
  exact of_decide_eq_true hfresh

/-- A call of the client only ever gives it a first client. -/
private theorem step_call (hmode : s.client.authMethod = "kubernetes")
    (h : step settings s e = some (s', obs)) :
    (∃ token, e = .expire token ∧ s' = { s with expired := token :: s.expired }) ∨
      (¬ s.ExpiresHeld e ∧ ∃ c, KeepsToken s c ∧ s' = { s with client := c }) := by
  cases e with
  | expire token =>
      simp only [step, Option.some.injEq, Prod.mk.injEq] at h
      exact Or.inl ⟨token, rfl, h.1.symm⟩
  | read path env =>
      simp only [step] at h
      split at h
      · rename_i hissued
        simp only [Option.some.injEq, Prod.mk.injEq] at h
        exact Or.inr ⟨id, _, .of_created hmode hissued (VaultClient.readSecret_grows _ _ _ _),
          h.1.symm⟩
      · cases h
  | probe a =>
      simp only [step] at h
      split at h
      · rename_i hissued
        simp only [Option.some.injEq, Prod.mk.injEq] at h
        have hgrows := VaultClient.getClient_grows s.client (a.under s.expired)
        rw [← VaultClient.isAuthenticated_client] at hgrows
        have hkeeps : KeepsToken s (s.client.isAuthenticated (a.under s.expired)).2.1 := by
          have hcreated : VaultClient.Grows (fun held => ∃ i, i < 1 ∧
              (s.client.createClient (((fun _ => a) i : VaultAttempt).under s.expired)).1 =
                .ok held) s.client (s.client.isAuthenticated (a.under s.expired)).2.1 :=
            hgrows.mono (fun held hcreated => ⟨0, Nat.one_pos, hcreated⟩)
          exact .of_created hmode (fun _ _ => hissued) hcreated
        exact Or.inr ⟨id, _, hkeeps, h.1.symm⟩
      · cases h

theorem step_authMethod (hmode : s.client.authMethod = "kubernetes")
    (h : step settings s e = some (s', obs)) : s'.client.authMethod = "kubernetes" := by
  rcases step_call hmode h with ⟨token, -, rfl⟩ | ⟨-, c, hkeeps, rfl⟩
  · exact hmode
  · exact hkeeps.authMethod_eq.1.trans hmode

/-- A client gets stuck by the expiration of the token it holds, and by nothing
else. -/
theorem step_stuck_iff (hmode : s.client.authMethod = "kubernetes") (hfree : ¬ s.Stuck)
    (h : step settings s e = some (s', obs)) : ¬ s'.Stuck ↔ ¬ s.ExpiresHeld e := by
  rcases step_call hmode h with ⟨token, rfl, rfl⟩ | ⟨hcall, c, hkeeps, rfl⟩
  · apply not_congr
    constructor
    · intro hstuck
      obtain ⟨held, hheld, hexpired⟩ := hstuck
      rcases List.mem_cons.mp hexpired with heq | hbefore
      · exact ⟨held, hheld, heq⟩
      · exact absurd ⟨held, hheld, hbefore⟩ hfree
    · intro hhit
      obtain ⟨held, hheld, heq⟩ := hhit
      exact ⟨held, hheld, List.mem_cons.mpr (Or.inl heq)⟩
  · apply iff_of_true _ hcall
    intro hstuck
    obtain ⟨held, hheld, hexpired⟩ := hstuck
    rcases hkeeps with heq | ⟨-, created, heq, hfresh⟩
    · exact hfree ⟨held, heq ▸ hheld, hexpired⟩
    · obtain rfl : created = held := by
        rw [heq] at hheld
        exact Option.some.inj hheld
      exact hfresh hexpired

/-- In kubernetes mode, every state of a run recovers exactly when no expiration
of the run hits the token that the client holds at that moment. -/
theorem throughout_recovers_iff (settings : Settings) (client : VaultClient)
    (hmode : client.authMethod = "kubernetes") (es : List VaultEvent) (s : VaultSession)
    (tr : List VaultObs) (hrun : run (step settings) (start client) es = some (s, tr)) :
    Throughout (step settings) (Recovers settings) (start client) es ↔
      Along (step settings) (fun s e => ¬ s.ExpiresHeld e) (start client) es := by
  refine throughout_iff_along (I := fun s => s.client.authMethod = "kubernetes") ?_ ?_ hmode ?_ hrun
  · intro s e s' o hmode hs
    exact step_authMethod hmode hs
  · intro s e s' o hmode hrecovers hs
    rw [recovers_iff (step_authMethod hmode hs)]
    exact step_stuck_iff hmode ((recovers_iff hmode).mp hrecovers) hs
  · apply (recovers_iff hmode).mpr
    intro hstuck
    obtain ⟨held, hheld, -⟩ := hstuck
    cases hheld

/-- A client with the settings' defaults. -/
def defaultClient : VaultClient := .init {} none none none none

/-- A read and a probe, with a token of somebody else expiring in between. -/
def othersExpire : List VaultEvent :=
  [.read none (fun _ => healthyAttempt "hvs.1"), .expire "hvs.0", .probe (healthyAttempt "hvs.2")]

theorem throughout_recovers_iff_othersExpire :
    Throughout (step {}) (Recovers {}) (start defaultClient) othersExpire ∧
      Along (step {}) (fun s e => ¬ s.ExpiresHeld e) (start defaultClient) othersExpire := by
  obtain ⟨s, tr, hrun, -⟩ : ∃ s tr,
      run (step {}) (start defaultClient) othersExpire = some (s, tr) ∧ True := exists_run rfl
  have hothers : Along (step {}) (fun s e => ¬ s.ExpiresHeld e) (start defaultClient)
      othersExpire := by
    refine ⟨id, fun s₁ o₁ hs₁ => ?_⟩
    cases hs₁
    refine ⟨?_, fun _ _ _ => ⟨id, fun _ _ _ => trivial⟩⟩
    intro h
    obtain ⟨held, hheld, htoken⟩ := h
    cases hheld
    revert htoken
    decide
  exact ⟨(throughout_recovers_iff {} _ rfl _ s tr hrun).mpr hothers, hothers⟩

/-- A read logs in, and the token it logged in with expires: a healthy Vault is
asked again and the read does not succeed. -/
theorem not_throughout_recovers_expired :
    ¬ ∀ (settings : Settings) (client : VaultClient), client.authMethod = "kubernetes" →
      ∀ (es : List VaultEvent) (s : VaultSession) (tr : List VaultObs),
        run (step settings) (start client) es = some (s, tr) → Recovers settings s := by
  intro h
  obtain ⟨s, tr, hrun, hclient, hexpired⟩ : ∃ s tr, run (step {}) (start defaultClient)
      [.read none (fun _ => healthyAttempt "hvs.1"), .expire "hvs.1"] = some (s, tr) ∧
        s.client.client = some ⟨Settings.vaultAddr {}, "hvs.1"⟩ ∧ "hvs.1" ∈ s.expired :=
    exists_run rfl
  have hrecovers := h {} _ rfl _ s tr hrun
  have hmode := run_state_invariant (I := fun s => s.client.authMethod = "kubernetes")
    (fun s e s' o hmode hs => step_authMethod hmode hs) rfl hrun
  exact (recovers_iff hmode).mp hrecovers ⟨_, hclient, hexpired⟩

end VaultSession

end PaymentConnector
