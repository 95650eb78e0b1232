import PaymentConnector.Managed
import PaymentConnector.VaultGatewayMock

/-!
# Credential rotation

`rotate-credentials.sh` rotates the gateway key in five moves: the gateway
accepts the old and the new key, Vault holds the new key, the script polls one
replica's readiness twenty times at most, it verifies the readiness once, and
the gateway accepts the new key only.  Meanwhile every replica polls Vault at
its own times, with failures, and serves payments.

The script waits for nothing: after twenty answers without a match it warns
and goes on, and it only reports the verification's status code.

## Main results

* `Generated.apiKey_plain` — the gateway reads a generated key back.
* `step_moveSpec`, `move_managed` — what a step does to the keys, and what it
  does to the manager of one replica.
-/

namespace PaymentConnector

open Library Library.Machine VaultGatewayMock

variable {ι : Type}

/-! ## The script -/

/-- The variable parts of a generated key: `date +%s` and sixteen characters
out of `a-z0-9`. -/
structure Generated where
  seconds : List Char
  random : List Char
  seconds_digits : seconds.all Char.isDigit = true
  random_chars : random.all (fun c => c.isLower || c.isDigit) = true

/-- `generate_api_key`. -/
def Generated.apiKey (g : Generated) : String :=
  String.ofList (['o', 'g', 'w', '-'] ++ g.seconds ++ '-' :: g.random)

/-- `new_api_secret`. -/
def Generated.apiSecret (g : Generated) : String :=
  "ogw-secret-" ++ String.ofList g.seconds ++ "-" ++ String.ofList g.random

/-- The variables of `rotate_credentials`.  Every command of the script is taken to succeed; under
`pipefail` that includes the pipes of step 2, where `tr` may still be writing when `head` has its
sixteen characters. -/
structure RotationScript where
  currentApiKey : String
  newApiKey : Generated
  newApiSecret : Generated
  newVersion : Int

/-- A secret of the KV v2 engine, which numbers its versions. -/
structure VaultSecret where
  data : Json
  version : Int
  createdTime : Option String

/-- What a read of the secret returns. -/
def VaultSecret.secretData (v : VaultSecret) : SecretData where
  data := v.data
  version := some v.version
  createdTime := v.createdTime

/-- How far the script has got; `polling n` has `n` attempts left. -/
inductive Phase
  | start
  | bothAccepted
  | polling (attempts : Nat)
  | polled (detected : Bool)
  | verified
  | removed

def pollAttempts : Nat := 20

/-- `grep -q` for a plain pattern. -/
def grep (pattern text : List Char) : Bool :=
  text.tails.any (fun rest => pattern.isPrefixOf rest)

/-- Whether one of the three `grep`s matches the readiness answer. -/
def RotationScript.detects (script : RotationScript) (healthResponse : String) : Bool :=
  [script.newApiKey.apiKey.toList.take 10,
    ("\"version\":\"" ++ toString script.newVersion ++ "\"").toList,
    ("\"version\":" ++ toString script.newVersion).toList].any
      (fun pattern => grep pattern healthResponse.toList)

/-- The environment of the gateway, the secret in Vault and the replicas. -/
structure Rotation (ι : Type) where
  phase : Phase
  validApiKeys : Option String
  vault : VaultSecret
  replicas : ι → Process

inductive RotationEvent (ι : Type)
  | acceptBoth
  | writeVault (createdAt : String) (createdTime : String)
  | poll (healthResponse : String)
  | verify (httpCode : String)
  | removeOld
  | load (i : ι) (failure : Option String) (t : LoadReadings)
  | request (i : ι) (rid : Nat) (request : AuthorizeRequest) (t : StartReadings)
  | answer (i : ι) (rid : Nat) (outcome : PostOutcome) (uuid : String) (t : AnswerReadings)

/-- The data that step 4 of the script writes. -/
def RotationScript.payload (script : RotationScript) (createdAt : String) : Json :=
  .obj [("api_key", .str script.newApiKey.apiKey),
    ("api_secret", .str script.newApiSecret.apiSecret),
    ("merchant_id", .str "orbitpay-merchant-001"),
    ("gateway_url", .str "http://vaultgateway-mock.orbitpay.svc.cluster.local:8080"),
    ("created_at", .str createdAt), ("version", .str (toString script.newVersion))]

namespace Rotation

/-- What a replica's read of the secret returns. -/
def read (s : Rotation ι) : Option String → VaultRead
  | some text => .error text
  | none => .ok s.vault.secretData

/-- A step of one replica. -/
def stepReplica [DecidableEq ι] (s : Rotation ι) (i : ι) (e : Event) :
    Option (Rotation ι × List (ι × Obs)) :=
  match (s.replicas i).step e with
  | none => none
  | some (p', obs) =>
      some ({ s with replicas := Function.update s.replicas i p' }, obs.map (fun x => (i, x)))

/-- One step of the script, with every command succeeding, or of a replica. -/
def step [DecidableEq ι] (script : RotationScript) (s : Rotation ι) :
    RotationEvent ι → Option (Rotation ι × List (ι × Obs))
  | .acceptBoth =>
      match s.phase with
      | .start =>
          some
            ({ s with
                phase := .bothAccepted
                validApiKeys := some (script.currentApiKey ++ "," ++ script.newApiKey.apiKey) }, [])
      | _ => none
  | .writeVault createdAt createdTime =>
      match s.phase with
      | .bothAccepted =>
          some
            ({ s with
                phase := .polling pollAttempts
                vault := ⟨script.payload createdAt, s.vault.version + 1, some createdTime⟩ }, [])
      | _ => none
  | .poll healthResponse =>
      match s.phase with
      | .polling (n + 1) =>
          if script.detects healthResponse then some ({ s with phase := .polled true }, [])
          else if n = 0 then some ({ s with phase := .polled false }, [])
          else some ({ s with phase := .polling n }, [])
      | _ => none
  | .verify _ =>
      match s.phase with
      | .polled _ => some ({ s with phase := .verified }, [])
      | _ => none
  | .removeOld =>
      match s.phase with
      | .verified =>
          some ({ s with phase := .removed, validApiKeys := some script.newApiKey.apiKey }, [])
      | _ => none
  | .load i failure t => s.stepReplica i (.load (s.read failure) t)
  | .request i rid request t => s.stepReplica i (.request rid request t)
  | .answer i rid outcome uuid t => s.stepReplica i (.answer rid outcome uuid t)

end Rotation

/-! ## Generated keys are plain -/

theorem plain_of_range {c : Char} (h : 45 ≤ c.toNat ∧ c.toNat ≤ 122) :
    c ≠ ',' ∧ isSpace c = false := by
  have hcomma : c ≠ ',' := by
    intro heq
    rw [heq] at h
    exact absurd h.1 (by decide)
  refine ⟨hcomma, ?_⟩
  unfold isSpace
  apply decide_eq_false
  simp only [List.mem_cons, List.not_mem_nil, or_false, not_or]
  omega

private theorem digit_range {c : Char} (h : c.isDigit = true) :
    45 ≤ c.toNat ∧ c.toNat ≤ 122 := by
  have hboth := Bool.and_eq_true_iff.mp h
  have hfirst : 48 ≤ c.toNat := UInt32.le_iff_toNat_le.mp (of_decide_eq_true hboth.1)
  have hlast : c.toNat ≤ 57 := UInt32.le_iff_toNat_le.mp (of_decide_eq_true hboth.2)
  omega

private theorem lower_range {c : Char} (h : c.isLower = true) :
    45 ≤ c.toNat ∧ c.toNat ≤ 122 := by
  have hboth := Bool.and_eq_true_iff.mp h
  have hfirst : 97 ≤ c.toNat := UInt32.le_iff_toNat_le.mp (of_decide_eq_true hboth.1)
  have hlast : c.toNat ≤ 122 := UInt32.le_iff_toNat_le.mp (of_decide_eq_true hboth.2)
  omega

theorem Generated.toList_apiKey (g : Generated) :
    g.apiKey.toList = ['o', 'g', 'w', '-'] ++ g.seconds ++ '-' :: g.random :=
  String.toList_ofList

/-- Dashes, digits and small letters. -/
theorem Generated.apiKey_range (g : Generated) :
    ∀ c ∈ g.apiKey.toList, 45 ≤ c.toNat ∧ c.toNat ≤ 122 := by
  have hprefix : ∀ c ∈ ['o', 'g', 'w', '-'], 45 ≤ c.toNat ∧ c.toNat ≤ 122 := by simp
  intro c hc
  rw [g.toList_apiKey, List.append_assoc] at hc
  rcases List.mem_append.mp hc with hfirst | hc
  · exact hprefix c hfirst
  · rcases List.mem_append.mp hc with hseconds | hc
    · exact digit_range (List.all_eq_true.mp g.seconds_digits c hseconds)
    · rcases List.mem_cons.mp hc with hdash | hrandom
      · exact hprefix c (by simp [hdash])
      · rcases Bool.or_eq_true_iff.mp (List.all_eq_true.mp g.random_chars c hrandom) with
          hlower | hdigit
        · exact lower_range hlower
        · exact digit_range hdigit

/-- The gateway reads a generated key back as it was generated. -/
theorem Generated.apiKey_plain (g : Generated) : PlainKey g.apiKey := by
  have hall : ∀ c ∈ g.apiKey.toList, c ≠ ',' ∧ isSpace c = false :=
    fun c hc => plain_of_range (g.apiKey_range c hc)
  refine
    { nonempty := ?_
      no_comma := ?_
      stripped := ?_ }
  · intro hempty
    have hlist := g.toList_apiKey
    rw [hempty] at hlist
    cases hlist
  · exact fun hin => (hall ',' hin).1 rfl
  · exact strip_of_no_space (fun c hc => (hall c hc).2)

/-! ## What a step of the rotation can do -/

/-- The new key is in Vault. -/
def Phase.written : Phase → Bool
  | .start | .bothAccepted => false
  | _ => true

namespace Rotation

section Moves

variable [DecidableEq ι] {script : RotationScript} {s s' : Rotation ι} {e : RotationEvent ι}
  {obs : List (ι × Obs)}

/-- Everything a step can do, as far as keys are concerned. -/
inductive MoveSpec (script : RotationScript) (s : Rotation ι) : RotationEvent ι → Rotation ι → Prop
  | acceptBoth (hphase : s.phase = .start) :
      MoveSpec script s .acceptBoth
        { s with
          phase := .bothAccepted
          validApiKeys := some (script.currentApiKey ++ "," ++ script.newApiKey.apiKey) }
  | writeVault (createdAt createdTime : String) (hphase : s.phase = .bothAccepted) :
      MoveSpec script s (.writeVault createdAt createdTime)
        { s with
          phase := .polling pollAttempts
          vault := ⟨script.payload createdAt, s.vault.version + 1, some createdTime⟩ }
  | waiting (e : RotationEvent ι) (phase : Phase) (hremove : e ≠ .removeOld)
      (hphase : s.phase.written = true ∧ s.phase ≠ .removed)
      (hphase' : phase.written = true ∧ phase ≠ .removed) :
      MoveSpec script s e { s with phase := phase }
  | removeOld (hphase : s.phase = .verified) :
      MoveSpec script s .removeOld
        { s with phase := .removed, validApiKeys := some script.newApiKey.apiKey }
  | loading (i : ι) (failure : Option String) (t : LoadReadings) (p : Process) (obs : List Obs)
      (hstep : (s.replicas i).step (.load (s.read failure) t) = some (p, obs)) :
      MoveSpec script s (.load i failure t)
        { s with replicas := Function.update s.replicas i p }
  | serving (e : RotationEvent ι) (i : ι) (event : Event) (p : Process) (obs : List Obs)
      (hremove : e ≠ .removeOld)
      (hevent : ∀ path m, event.manage path m = m)
      (hstep : (s.replicas i).step event = some (p, obs)) :
      MoveSpec script s e { s with replicas := Function.update s.replicas i p }

theorem stepReplica_eq_some {i : ι} {event : Event}
    (h : s.stepReplica i event = some (s', obs)) :
    ∃ p o, (s.replicas i).step event = some (p, o) ∧
      s' = { s with replicas := Function.update s.replicas i p } := by
  unfold stepReplica at h
  split at h
  · cases h
  · rename_i p o hstep
    rw [Option.some.injEq, Prod.mk.injEq] at h
    exact ⟨p, o, hstep, h.1.symm⟩

theorem step_moveSpec (h : step script s e = some (s', obs)) : MoveSpec script s e s' := by
  cases e with
  | acceptBoth =>
      simp only [step] at h
      split at h
      · rename_i hphase
        rw [Option.some.injEq, Prod.mk.injEq] at h
        rw [← h.1]
        exact .acceptBoth hphase
      · cases h
  | writeVault createdAt createdTime =>
      simp only [step] at h
      split at h
      · rename_i hphase
        rw [Option.some.injEq, Prod.mk.injEq] at h
        rw [← h.1]
        exact .writeVault createdAt createdTime hphase
      · cases h
  | poll healthResponse =>
      simp only [step] at h
      split at h
      · rename_i n hphase
        have hwritten : s.phase.written = true ∧ s.phase ≠ .removed := by
          simp [hphase, Phase.written]
        split at h
        · rw [Option.some.injEq, Prod.mk.injEq] at h
          rw [← h.1]
          exact .waiting _ _ (by simp) hwritten ⟨rfl, by simp⟩
        · split at h
          · rw [Option.some.injEq, Prod.mk.injEq] at h
            rw [← h.1]
            exact .waiting _ _ (by simp) hwritten ⟨rfl, by simp⟩
          · rw [Option.some.injEq, Prod.mk.injEq] at h
            rw [← h.1]
            exact .waiting _ _ (by simp) hwritten ⟨rfl, by simp⟩
      · cases h
  | verify httpCode =>
      simp only [step] at h
      split at h
      · rename_i detected hphase
        have hwritten : s.phase.written = true ∧ s.phase ≠ .removed := by
          simp [hphase, Phase.written]
        rw [Option.some.injEq, Prod.mk.injEq] at h
        rw [← h.1]
        exact .waiting _ _ (by simp) hwritten ⟨rfl, by simp⟩
      · cases h
  | removeOld =>
      simp only [step] at h
      split at h
      · rename_i hphase
        rw [Option.some.injEq, Prod.mk.injEq] at h
        rw [← h.1]
        exact .removeOld hphase
      · cases h
  | load i failure t =>
      obtain ⟨p, o, hstep, rfl⟩ := stepReplica_eq_some h
      exact .loading i failure t p o hstep
  | request i rid request t =>
      obtain ⟨p, o, hstep, rfl⟩ := stepReplica_eq_some h
      exact .serving _ i _ p o (by simp) (fun _ _ => rfl) hstep
  | answer i rid outcome uuid t =>
      obtain ⟨p, o, hstep, rfl⟩ := stepReplica_eq_some h
      exact .serving _ i _ p o (by simp) (fun _ _ => rfl) hstep

/-- A property of a replica's manager after a step, from one before it: only
the replica's own loads have to be looked at. -/
theorem move_managed {P Q : CredentialManager → Prop} (hmove : MoveSpec script s e s') {j : ι}
    (hP : (s.replicas j).Managed P) (hPQ : ∀ m, P m → Q m)
    (hload : ∀ path m failure t, e = .load j failure t →
      (s.replicas j).connector.credentialManager = some m → P m →
        Q (CredentialManager.afterLoad path m ⟨s.read failure, t⟩)) :
    (s'.replicas j).Managed Q := by
  cases hmove with
  | acceptBoth => exact hP.imp hPQ
  | writeVault => exact hP.imp hPQ
  | waiting => exact hP.imp hPQ
  | removeOld => exact hP.imp hPQ
  | loading i failure t p o hstep =>
      by_cases hij : j = i
      · subst hij
        obtain ⟨m, hm, hPm⟩ := hP
        have hnew := step_manager hm hstep
        have hQ := hload (s.replicas j).connector.settings.vaultSecretPath m failure t rfl hm hPm
        refine ⟨_, ?_, hQ⟩
        show (Function.update s.replicas j p j).connector.credentialManager = _
        rw [Function.update_self, hnew]
        rfl
      · show (Function.update s.replicas i p j).Managed Q
        rw [Function.update_of_ne hij]
        exact hP.imp hPQ
  | serving e i event p o hremove hevent hstep =>
      by_cases hij : j = i
      · subst hij
        obtain ⟨m, hm, hPm⟩ := hP
        have hnew := step_manager hm hstep
        rw [hevent] at hnew
        refine ⟨m, ?_, hPQ m hPm⟩
        show (Function.update s.replicas j p j).connector.credentialManager = some m
        rw [Function.update_self, hnew]
      · show (Function.update s.replicas i p j).Managed Q
        rw [Function.update_of_ne hij]
        exact hP.imp hPQ

end Moves

end Rotation

end PaymentConnector
