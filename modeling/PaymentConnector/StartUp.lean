import PaymentConnector.Responses
import PaymentConnector.Managed

/-!
# The service before its first credential

`lifespan` goes on when `load_credentials` fails, so the service may answer requests without
ever having held a credential.  It then fails closed: until some load has installed a
credential no POST leaves the process, no payment is answered, from the gateway or from the
cache, and no probe is told that the service is ready.  What such a load returns does not
matter: one that installs a version which the gauge cannot hold returns `False`.

## Main results

* `Process.step_shut` — a step before the first installed credential opens nothing.
* `Service.startUp` — a run that installs no credential opens nothing.
-/

namespace PaymentConnector

open Library Library.Machine

/-! ## The process -/

/-- A POST, or a payment as the answer. -/
def Obs.Opens : Obs → Prop
  | .posted _ _ _ => True
  | .replied _ _ reply => reply.body? ≠ none
  | _ => False

theorem Obs.output_not_opens (output : Output) : ¬ (Obs.output output).Opens := id

/-- A body that only a service with a credential sends. -/
def ResponseBody.Opens (statusCode : Nat) : ResponseBody → Prop
  | .payment _ => True
  | .health _ => statusCode = 200
  | _ => False

/-- The handler goes on to answer with a payment only if it shows it. -/
theorem Obs.exists_opens {obs : List Obs} {statusCode : Nat} {body : ResponseBody}
    (hstage : stageAfter obs = .answered (.response statusCode body))
    (hopens : body.Opens statusCode) : ∃ x ∈ obs, x.Opens := by
  unfold stageAfter at hstage
  split at hstage
  · rename_i reply hfound
    obtain ⟨x, hin, hreply⟩ := List.exists_of_findSome?_eq_some hfound
    refine ⟨x, hin, ?_⟩
    cases x with
    | replied rid request reply' =>
        cases hreply
        intro hnone
        cases reply with
        | ok response => cases hnone
        | replay response => cases hnone
        | httpException code detail =>
            cases hstage
            exact hopens
        | escaped exc => cases hstage
    | _ => cases hreply
  · cases hstage

namespace Process

/-- No credential, no response in the cache and no POST under way. -/
structure Shut (p : Process) : Prop where
  uncredentialed : ∀ manager, p.connector.credentialManager = some manager →
    manager.getCurrentCredential = none
  uncached : p.connector.idempotencyCache = .empty
  idle : p.waiting = []

variable {p p' : Process} {e : Event} {obs : List Obs}

theorem start_shut (settings : Settings) : (start settings .init).Shut where
  uncredentialed := by
    intro manager heq
    cases heq
    rfl
  uncached := rfl
  idle := rfl

theorem Shut.not_valid (h : p.Shut) {manager : CredentialManager} {now : Rat}
    (hmanager : p.connector.credentialManager = some manager) :
    ¬ manager.hasValidCredentials now = .ok true := by
  intro hvalid
  obtain ⟨credential, hcurrent⟩ := CredentialManager.exists_current_of_valid hvalid
  rw [h.uncredentialed manager hmanager] at hcurrent
  cases hcurrent

/-- The status of the credentials is that of none. -/
theorem Shut.credentialStatus (h : p.Shut) (now : Rat) :
    p.connector.credentialStatus now = .ok .error := by
  unfold Connector.credentialStatus
  split
  · rfl
  · rename_i manager hmanager
    rw [CredentialManager.credentialStatus, h.uncredentialed manager hmanager]

/-- The event is a load that installs a credential. -/
def Installs (p : Process) : Event → Prop
  | .load read t => p.Managed (fun m => m.Changes ⟨read, t⟩)
  | _ => False

/-- Any other load leaves the current credential as it was. -/
private theorem current_of_not_installs {manager manager' : CredentialManager} {read : VaultRead}
    {t : LoadReadings} {result : Bool} {outputs : List Output}
    (hmanager : p.connector.credentialManager = some manager)
    (hload : manager.loadCredentials p.connector.settings.vaultSecretPath read t =
      (result, manager', outputs)) (h : ¬ p.Installs (.load read t)) :
    manager'.getCurrentCredential = manager.getCurrentCredential := by
  have hsame : ¬ manager.Changes ⟨read, t⟩ := fun hchanges => h ⟨manager, hmanager, hchanges⟩
  have hkept := CredentialManager.afterLoad_of_not_changes
    p.connector.settings.vaultSecretPath hsame
  unfold CredentialManager.afterLoad at hkept
  dsimp only at hkept
  rw [hload] at hkept
  exact CredentialManager.getCurrentCredential_congr hkept.1 hkept.2.1

private theorem Shut.of_kept (h : p.Shut) {manager manager' : CredentialManager}
    (hmanager : p.connector.credentialManager = some manager)
    (hcurrent : manager'.getCurrentCredential = manager.getCurrentCredential) :
    Shut { p with
      connector := { p.connector with credentialManager := some manager' } } where
  uncredentialed := by
    intro manager'' heq
    cases heq
    rw [hcurrent]
    exact h.uncredentialed manager hmanager
  uncached := h.uncached
  idle := h.idle

theorem step_shut (h : p.Shut) (hstep : p.step e = some (p', obs)) :
    (¬ p.Installs e → p'.Shut) ∧ ∀ x ∈ obs, ¬ x.Opens := by
  cases step_spec hstep with
  | load read t manager manager' result outputs hmanager hload =>
      refine ⟨?_, ?_⟩
      · exact fun hnot => h.of_kept hmanager (current_of_not_installs hmanager hload hnot)
      · intro x hin
        rcases List.mem_append.mp hin with hin | hin
        · obtain ⟨output, -, rfl⟩ := List.mem_map.mp hin
          exact Obs.output_not_opens output
        · rw [List.mem_singleton.mp hin]
          exact id
  | refused rid request t client code detail outputs =>
      refine ⟨fun _ => ⟨h.uncredentialed, h.uncached, h.idle⟩, ?_⟩
      intro x hin
      rcases List.mem_append.mp hin with hin | hin
      · obtain ⟨output, -, rfl⟩ := List.mem_map.mp hin
        exact Obs.output_not_opens output
      · rw [List.mem_singleton.mp hin]
        exact fun hopens => hopens rfl
  | raised rid request t exc outputs =>
      refine ⟨fun _ => ⟨h.uncredentialed, h.uncached, h.idle⟩, ?_⟩
      intro x hin
      rcases List.mem_append.mp hin with hin | hin
      · obtain ⟨output, -, rfl⟩ := List.mem_map.mp hin
        exact Obs.output_not_opens output
      · rw [List.mem_singleton.mp hin]
        exact fun hopens => hopens rfl
  | replayed rid request t manager cached outputs hseen haccepted hmanager hvalid =>
      exact absurd hvalid (h.not_valid hmanager)
  | posting rid request t manager client primary hseen haccepted hmanager hvalid =>
      exact absurd hvalid (h.not_valid hmanager)
  | stored handler outcome uuid t client inFlight outputs body response hmem =>
      rw [h.idle] at hmem
      cases hmem
  | failed handler outcome uuid t client inFlight outputs reply hmem =>
      rw [h.idle] at hmem
      cases hmem
  | fallback handler outcome uuid t client inFlight outputs credential hmem =>
      rw [h.idle] at hmem
      cases hmem

end Process

/-! ## The service -/

/-- A stage from which a request goes on to what needs a credential. -/
def CallStage.Opens : CallStage → Prop
  | .probing _ credStatus => credStatus = .valid ∨ credStatus = .expiringSoon
  | .answered (.response statusCode body) => body.Opens statusCode
  | _ => False

/-- A POST, an answer with a payment, or the answer that the service is ready. -/
def ServiceObs.Opens : ServiceObs → Prop
  | .process x => x.Opens
  | .responded _ response => response.body.Opens response.statusCode
  | _ => False

theorem stageAfter_not_opens {obs : List Obs} (h : ∀ x ∈ obs, ¬ x.Opens)
    (hprobing : ∀ vaultConnected credStatus, stageAfter obs ≠ .probing vaultConnected credStatus) :
    ¬ (stageAfter obs).Opens := by
  intro hopens
  cases hstage : stageAfter obs with
  | probing vaultConnected credStatus => exact hprobing vaultConnected credStatus hstage
  | answered answer =>
      rw [hstage] at hopens
      cases answer with
      | response statusCode body =>
          obtain ⟨x, hin, hx⟩ := Obs.exists_opens hstage hopens
          exact h x hin hx
      | raised exc => exact hopens
  | _ =>
      rw [hstage] at hopens
      exact hopens

theorem stageAfter_ne_probing (obs : List Obs) (vaultConnected : Bool)
    (credStatus : CredentialStatus) : stageAfter obs ≠ .probing vaultConnected credStatus := by
  unfold stageAfter
  split <;> exact fun heq => by cases heq

/-- Without a valid credential the probe is not told that the service is ready. -/
theorem readiness_not_opens {startTime : Rat} {vaultConnected : Bool}
    {credStatus : CredentialStatus} {gatewayReachable : Bool} {now : Rat}
    (h : ¬ (CallStage.probing vaultConnected credStatus).Opens) :
    ¬ (CallStage.answered
      (readiness startTime vaultConnected credStatus gatewayReachable now).1).Opens := by
  have hnot : (credStatus = .valid || credStatus = .expiringSoon) = false := by
    rw [Bool.eq_false_iff]
    intro htrue
    refine h ?_
    rcases Bool.or_eq_true_iff.mp htrue with hvalid | hsoon
    · exact Or.inl (of_decide_eq_true hvalid)
    · exact Or.inr (of_decide_eq_true hsoon)
  unfold readiness
  dsimp only
  rw [hnot, Bool.and_false]
  show ¬ (503 : Nat) = 200
  omega

namespace Service

variable {s s' : Service} {e : ServiceEvent} {tr obs : List ServiceObs}

/-- No credential, and no request on its way to what needs one. -/
structure Shut (s : Service) : Prop where
  process : s.process.Shut
  calls : ∀ call ∈ s.calls, ¬ call.stage.Opens

/-- Requests that keep their stage, or get one that opens nothing, open nothing. -/
private theorem Shut.of_setStage (h : s.Shut) {s₁ : Service} {rid : Nat} {stage : CallStage}
    (hprocess : s₁.process.Shut) (hcalls : s₁.calls = s.calls) (hstage : ¬ stage.Opens) :
    (s₁.setStage rid stage).Shut := by
  refine ⟨hprocess, fun call' hin => ?_⟩
  obtain ⟨call, hmem, rfl⟩ := List.mem_map.mp hin
  rw [hcalls] at hmem
  by_cases hrid : call.rid = rid
  · rw [if_pos hrid]
    exact hstage
  · rw [if_neg hrid]
    exact h.calls call hmem

private theorem outputs_not_open (outputs : List Output) :
    ∀ x ∈ outputs.map ServiceObs.output, ¬ x.Opens := by
  intro x hin
  obtain ⟨output, -, rfl⟩ := List.mem_map.mp hin
  exact id

private theorem process_not_open {obs : List Obs} (h : ∀ x ∈ obs, ¬ x.Opens) :
    ∀ x ∈ obs.map ServiceObs.process, ¬ x.Opens := by
  intro x hin
  obtain ⟨o, hmem, rfl⟩ := List.mem_map.mp hin
  exact h o hmem

private theorem refreshSleep_not_open (settings : Settings) (errors : Nat) :
    ∀ x ∈ refreshSleep settings errors, ¬ x.Opens := by
  intro x hin
  unfold refreshSleep at hin
  dsimp only at hin
  split at hin
  · rcases List.mem_cons.mp hin with rfl | hin
    · exact id
    · rw [List.mem_singleton.mp hin]
      exact id
  · rw [List.mem_singleton.mp hin]
    exact id

/-- A response is as open as the answer from below. -/
private theorem respond_not_open {call : HttpCall} {answer : HttpAnswer} {now : Rat}
    (h : ¬ (CallStage.answered answer).Opens) : ∀ x ∈ respond call answer now, ¬ x.Opens := by
  intro x hin
  cases answer with
  | response statusCode body =>
      rcases List.mem_append.mp hin with hin | hin
      · exact outputs_not_open _ x hin
      · rw [List.mem_singleton.mp hin]
        exact h
  | raised exc =>
      rw [List.mem_singleton.mp hin]
      exact id

/-- A stretch of the authorize handler. -/
private theorem Shut.step_handled (h : s.Shut) {process : Process} {obs : List Obs} {rid : Nat}
    (hshut : process.Shut) (hsilent : ∀ x ∈ obs, ¬ x.Opens) :
    (setStage { s with process := process } rid (stageAfter obs)).Shut ∧
      ∀ x ∈ obs.map ServiceObs.process, ¬ x.Opens :=
  ⟨h.of_setStage hshut rfl (stageAfter_not_opens hsilent (stageAfter_ne_probing obs)),
    process_not_open hsilent⟩

/-- The event is a load whose read of Vault installs a credential. -/
def Installs (s : Service) : ServiceEvent → Prop
  | .load env t => ∃ read, vaultRead?
      (s.vaultClient.readSecret s.process.connector.settings none env).1 = some read ∧
        s.process.Installs (.load read t)
  | _ => False

theorem step_shut (h : s.Shut) (hnot : ¬ s.Installs e) (hstep : s.step e = some (s', obs)) :
    s'.Shut ∧ ∀ x ∈ obs, ¬ x.Opens := by
  cases step_cases hstep with
  | loaded env t read process obs hread hload =>
      obtain ⟨hnext, hsilent⟩ := Process.step_shut h.process hload
      refine ⟨⟨hnext (fun hinstalls => hnot ⟨read, hread, hinstalls⟩), h.calls⟩, ?_⟩
      · intro x hin
        rcases List.mem_append.mp hin with hin | hin
        · rcases List.mem_append.mp hin with hin | hin
          · exact outputs_not_open _ x hin
          · exact process_not_open hsilent x hin
        · exact refreshSleep_not_open _ _ x hin
  | received rid request uuid now =>
      refine ⟨⟨h.process, ?_⟩, fun x hin => absurd hin List.not_mem_nil⟩
      intro call hin
      rcases List.mem_append.mp hin with hold | hnew
      · exact h.calls call hold
      · rw [List.mem_singleton.mp hnew]
        exact id
  | admitted rid created now call hcall =>
      exact ⟨h.of_setStage h.process rfl id, outputs_not_open _⟩
  | limited rid created now call hcall =>
      exact ⟨h.of_setStage h.process rfl id, outputs_not_open _⟩
  | authorizing rid vault t call payment process obs hcall hstage hroute hrequest =>
      obtain ⟨hnext, hsilent⟩ := Process.step_shut h.process hrequest
      exact h.step_handled (hnext id) hsilent
  | answeredAtOnce rid vault t call answer hcall hstage hroute =>
      refine ⟨h.of_setStage h.process rfl ?_, fun x hin => absurd hin List.not_mem_nil⟩
      rcases hroute with ⟨-, rfl⟩ | ⟨-, rfl⟩ | ⟨statusCode, detail, -, rfl⟩
      · exact id
      · exact id
      · unfold frameworkAnswer
        split <;> exact id
  | probing rid vault t call hcall hstage hroute =>
      refine ⟨h.of_setStage h.process rfl ?_, outputs_not_open _⟩
      rw [h.process.credentialStatus]
      rintro (heq | heq) <;> cases heq
  | resumed rid outcome uuid t process obs hanswer =>
      obtain ⟨hnext, hsilent⟩ := Process.step_shut h.process hanswer
      exact h.step_handled (hnext id) hsilent
  | probed rid statusCode now call vaultConnected credStatus hcall hstage =>
      refine ⟨h.of_setStage h.process rfl (readiness_not_opens ?_), outputs_not_open _⟩
      exact hstage ▸ h.calls call (call?_mem hcall)
  | responded rid now call answer hcall hstage =>
      refine ⟨⟨h.process, fun call' hin => h.calls call' (List.mem_of_mem_filter hin)⟩, ?_⟩
      exact respond_not_open (hstage ▸ h.calls call (call?_mem hcall))

/-- For every schedule, whatever Vault answers: as long as no load has installed a credential no
POST is made, no request is answered with a payment, and no probe with a 200. -/
theorem startUp (settings : Settings) (now : Rat) (es : List ServiceEvent) (s : Service)
    (tr : List ServiceObs) (hrun : run step (start settings now) es = some (s, tr))
    (hnone : Along step (fun s e => ¬ s.Installs e) (start settings now) es) :
    ∀ x ∈ tr, ¬ x.Opens := by
  have hshut : s.Shut ∧ ∀ x ∈ tr, ¬ x.Opens :=
    run_invariant_along (C := fun s e => ¬ s.Installs e)
      (I := fun s tr => s.Shut ∧ ∀ x ∈ tr, ¬ x.Opens)
      (fun s tr e s' obs h hnot hstep => by
        obtain ⟨hnext, hsilent⟩ := step_shut h.1 hnot hstep
        exact ⟨hnext, List.forall_mem_append.mpr ⟨h.2, hsilent⟩⟩)
      ⟨⟨Process.start_shut settings, fun _ hin => absurd hin List.not_mem_nil⟩,
        fun _ hin => absurd hin List.not_mem_nil⟩ hnone hrun
  exact hshut.2

/-- A payment with nothing loaded. -/
def emptyHandedRun : List ServiceEvent :=
  [.load (fun _ => unreachable) (.at 1), .receive 1 sampleHttpRequest "uuid-1" 2,
    .limit 1 2 2, .handle 1 unreachable (.at 2), .respond 1 4]

theorem startUp_emptyHanded :
    ∃ s tr, run step (start sampleSettings 1) emptyHandedRun = some (s, tr) ∧
      (1, 503) ∈ statuses tr ∧ ∀ x ∈ tr, ¬ x.Opens := by
  obtain ⟨s, tr, hrun, hanswered⟩ : ∃ s tr,
      run step (start sampleSettings 1) emptyHandedRun = some (s, tr) ∧ (1, 503) ∈ statuses tr :=
    exists_run (by decide +kernel)
  have hnone : Along step (fun s e => ¬ s.Installs e) (start sampleSettings 1) emptyHandedRun := by
    refine ⟨?_, fun _ _ _ => ⟨id, fun _ _ _ => ⟨id, fun _ _ _ => ⟨id, fun _ _ _ =>
      ⟨id, fun _ _ _ => trivial⟩⟩⟩⟩⟩
    rintro ⟨read, hread, manager, -, secret, pair, ttl, hsecret, -⟩
    obtain rfl : read = .ok secret := hsecret
    have hfails : (vaultRead? ((start sampleSettings 1).vaultClient.readSecret
        (start sampleSettings 1).process.connector.settings none
        (fun _ => unreachable)).1).any (fun read => read.isOk) = false := by decide +kernel
    rw [hread] at hfails
    cases hfails
  exact ⟨s, tr, hrun, hanswered, startUp sampleSettings 1 emptyHandedRun s tr hrun hnone⟩

end Service

end PaymentConnector
