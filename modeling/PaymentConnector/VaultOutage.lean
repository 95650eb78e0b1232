import PaymentConnector.Service

/-!
# Payments during an outage of Vault

A load that returns `False` leaves an error text and a count behind, which no handler reads,
and nothing else unless the version gauge raised on the version that it installed.  So all other
failed loads of a run can be left out of it, however they interleave with the handlers: the rest
of the run goes through as before, with the same POSTs, replies, stores and evictions, and it
ends in the same state but for the text and the count.

## Main results

* `Process.step_forgetErrors` — no step depends on the text and the count.
* `Process.outageInvisible` — a run without the failed loads that install nothing.
-/

namespace PaymentConnector

open Library Library.Machine

namespace CredentialManager

/-- The manager without what a failed load leaves behind. -/
def forgetErrors (m : CredentialManager) : CredentialManager :=
  { m with lastError := none, credentialFetchErrorsTotal := 0 }

theorem updateAgeMetric_forgetErrors (m : CredentialManager) (now : Rat) :
    m.forgetErrors.updateAgeMetric now = (m.updateAgeMetric now).forgetErrors := by
  have hcurrent : m.forgetErrors.getCurrentCredential = m.getCurrentCredential := rfl
  unfold updateAgeMetric
  rw [hcurrent]
  cases m.getCurrentCredential <;> rfl

theorem announce_forgetErrors (path : String) (oldVersion version : Option Int)
    (m : CredentialManager) (now : Rat) :
    announce path oldVersion version m.forgetErrors now =
      ((announce path oldVersion version m now).1.forgetErrors,
        (announce path oldVersion version m now).2) := by
  unfold announce
  rw [updateAgeMetric_forgetErrors]
  dsimp only
  split <;> rfl

theorem setVersionGauge_forgetErrors (m : CredentialManager) (version : Option Int) :
    m.forgetErrors.setVersionGauge version = (m.setVersionGauge version).map forgetErrors := by
  cases version with
  | none => rfl
  | some v =>
      simp only [setVersionGauge]
      cases pyFloat v <;> rfl

theorem install_forgetErrors (path : String) (m : CredentialManager) (credential : Credential)
    (t : LoadReadings) :
    m.forgetErrors.install path credential t =
      ((m.install path credential t).1.forgetErrors, (m.install path credential t).2) := by
  have hremember : m.forgetErrors.remember credential t =
      ((m.remember credential t).1.forgetErrors, (m.remember credential t).2) := rfl
  have hcurrent : m.forgetErrors.currentVersion = m.currentVersion := rfl
  unfold install
  rw [hremember, hcurrent]
  dsimp only
  rw [setVersionGauge_forgetErrors]
  cases (m.remember credential t).1.setVersionGauge credential.version with
  | error exc => rfl
  | ok m' =>
      simp only [Except.map]
      rw [announce_forgetErrors]

theorem processSecret_forgetErrors (path : String) (m : CredentialManager) (secret : SecretData)
    (t : LoadReadings) :
    (m.forgetErrors.processSecret path secret t).1.forgetErrors =
        (m.processSecret path secret t).1.forgetErrors ∧
      (m.forgetErrors.processSecret path secret t).2 = (m.processSecret path secret t).2 := by
  have hexamine : m.forgetErrors.examine secret t = m.examine secret t := rfl
  unfold processSecret
  rw [hexamine]
  cases m.examine secret t with
  | error exc => exact ⟨rfl, rfl⟩
  | ok finding =>
      cases finding with
      | missingFields => exact ⟨rfl, rfl⟩
      | unchanged =>
          dsimp only
          rw [updateAgeMetric_forgetErrors]
          exact ⟨rfl, rfl⟩
      | accepted credential =>
          dsimp only
          rw [install_forgetErrors]
          exact ⟨rfl, rfl⟩

/-- A load takes its course whatever failed before. -/
theorem loadCredentials_forgetErrors (path : String) (m : CredentialManager) (read : VaultRead)
    (t : LoadReadings) :
    (m.forgetErrors.loadCredentials path read t).1 = (m.loadCredentials path read t).1 ∧
      (m.forgetErrors.loadCredentials path read t).2.1.forgetErrors =
        (m.loadCredentials path read t).2.1.forgetErrors ∧
      (m.forgetErrors.loadCredentials path read t).2.2 = (m.loadCredentials path read t).2.2 := by
  unfold loadCredentials
  cases read with
  | error text => exact ⟨rfl, rfl, rfl⟩
  | ok secret =>
      obtain ⟨hmanager, houtcome⟩ := m.processSecret_forgetErrors path secret t
      dsimp only
      generalize m.forgetErrors.processSecret path secret t = r at hmanager houtcome ⊢
      generalize m.processSecret path secret t = r' at hmanager houtcome ⊢
      obtain ⟨manager, outputs, result⟩ := r
      obtain ⟨manager', outputs', result'⟩ := r'
      obtain ⟨rfl, rfl⟩ := Prod.mk.inj houtcome
      cases result with
      | ok result => exact ⟨rfl, hmanager, rfl⟩
      | error exc =>
          refine ⟨rfl, ?_, rfl⟩
          -- The text and the count are all that the rescue writes.
          have hfields := hmanager
          simp only [forgetErrors, mk.injEq] at hfields
          obtain ⟨hcache, hcurrent, hprevious, -, hversion, hage, hrotations, -, hoid⟩ := hfields
          simp only [rescue, loadFailed, forgetErrors, hcache, hcurrent, hprevious, hversion, hage,
            hrotations, hoid]

end CredentialManager

namespace Connector

def forgetErrors (c : Connector) : Connector :=
  { c with credentialManager := c.credentialManager.map CredentialManager.forgetErrors }

@[simp] theorem forgetErrors_forgetErrors (c : Connector) :
    c.forgetErrors.forgetErrors = c.forgetErrors := by
  obtain ⟨settings, manager?, client?, cache, inFlight⟩ := c
  cases manager? <;> rfl

theorem beginRequest_forgetErrors (c : Connector) (request : AuthorizeRequest)
    (t : StartReadings) :
    c.forgetErrors.beginRequest request t =
      ((c.beginRequest request t).1.forgetErrors, (c.beginRequest request t).2) := by
  obtain ⟨settings, manager?, client?, cache, inFlight⟩ := c
  unfold beginRequest
  simp only [forgetErrors]
  cases validateApiKey settings request.xApiKey request.requestId with
  | some refusal => rfl
  | none =>
      cases manager? with
      | none => rfl
      | some manager =>
          have hvalid : manager.forgetErrors.hasValidCredentials t.check =
              manager.hasValidCredentials t.check := rfl
          simp only [Option.map_some, hvalid]
          rcases manager.hasValidCredentials t.check with exc | _ | _
          · rfl
          · rfl
          · dsimp only
            · rcases checkIdempotency request.payment.idempotencyKey cache with
                ⟨_ | cached, cache⟩
              · cases client? with
                | none => rfl
                | some client =>
                    have hbegin : client.beginAuthorize manager.forgetErrors request.payment t =
                        client.beginAuthorize manager request.payment t := rfl
                    simp only [hbegin]
                    rcases client.beginAuthorize manager request.payment t with ⟨client', result⟩
                    cases result with
                    | ok pending => rfl
                    | error error => cases error <;> rfl
              · rfl

theorem resumeRequest_forgetErrors (c : Connector) (client : GatewayClient)
    (payment : PaymentRequest) (p : Pending) (outcome : PostOutcome) (uuid : String)
    (t : AnswerReadings) :
    c.forgetErrors.resumeRequest client payment p outcome uuid t =
      ((c.resumeRequest client payment p outcome uuid t).1.forgetErrors,
        (c.resumeRequest client payment p outcome uuid t).2) := by
  unfold resumeRequest
  rcases client.resumeAuthorize p outcome t with ⟨client', progress, outputs⟩
  cases progress with
  | posting pending => rfl
  | failed error => cases error <;> rfl
  | escaped exc => rfl
  | returned body =>
      simp only [finishRequest]
      cases buildResponse payment body uuid t.stamp <;> rfl

end Connector

namespace Process

variable {p p' : Process} {e : Event} {obs : List Obs}

def forgetErrors (p : Process) : Process := { p with connector := p.connector.forgetErrors }

/-- No step depends on what failed loads left behind. -/
theorem step_forgetErrors (p : Process) (e : Event) :
    (p.forgetErrors.step e).map (fun r => (r.1.forgetErrors, r.2)) =
      (p.step e).map (fun r => (r.1.forgetErrors, r.2)) := by
  have hconnector : p.forgetErrors.connector = p.connector.forgetErrors := rfl
  cases e with
  | load read t =>
      obtain ⟨⟨settings, manager?, client?, cache, inFlight⟩, waiting, seen⟩ := p
      cases manager? with
      | none => rfl
      | some manager =>
          obtain ⟨hresult, hmanager, houtputs⟩ :=
            manager.loadCredentials_forgetErrors settings.vaultSecretPath read t
          simp only [step, forgetErrors, Connector.forgetErrors, Option.map_some]
          rw [hresult, houtputs, hmanager]
  | request rid request t =>
      by_cases hseen : rid ∈ p.seen
      · have hsame : rid ∈ p.forgetErrors.seen := hseen
        simp only [step, if_pos hseen, if_pos hsame, Option.map_none]
      · simp only [step, if_neg hseen, Connector.beginRequest_forgetErrors, Option.map_some,
          forgetErrors, Connector.forgetErrors_forgetErrors]
  | answer rid outcome uuid t =>
      have hclient : p.connector.forgetErrors.gatewayClient = p.connector.gatewayClient := rfl
      have hwaiting : p.forgetErrors.waiting = p.waiting := rfl
      simp only [step, hconnector, hclient, hwaiting]
      cases p.connector.gatewayClient with
      | none => rfl
      | some client =>
          cases p.waiting.find? (fun h => h.rid = rid) with
          | none => rfl
          | some handler =>
              simp only [Connector.resumeRequest_forgetErrors, Option.map_some, forgetErrors,
                Connector.forgetErrors_forgetErrors]

/-- Processes that differ in what failed loads left behind take the same steps. -/
theorem step_of_forgetErrors_eq {q : Process} (h : p.forgetErrors = q.forgetErrors)
    (hstep : p.step e = some (p', obs)) :
    ∃ q', q.step e = some (q', obs) ∧ p'.forgetErrors = q'.forgetErrors := by
  have hp := step_forgetErrors p e
  have hq := step_forgetErrors q e
  rw [h, hq, hstep] at hp
  cases hother : q.step e with
  | none =>
      rw [hother] at hp
      cases hp
  | some r =>
      rw [hother, Option.map_some, Option.map_some, Option.some.injEq, Prod.mk.injEq] at hp
      obtain ⟨q', shown⟩ := r
      obtain ⟨hsame, rfl⟩ := hp
      exact ⟨q', rfl, hsame.symm⟩

end Process

/-! ## Runs without idle loads -/

/-- What an observation shows of payments: all but what is logged and audited, and the results
of loads. -/
def Obs.ofPayment : Obs → Bool
  | .output _ | .loaded _ => false
  | _ => true

namespace Process

variable {p p' : Process} {e : Event} {obs : List Obs}

/-- A load that returns `False` and installs nothing. -/
def failsIdly (p : Process) : Event → Bool
  | .load read t =>
      p.connector.credentialManager.any fun manager =>
        !(manager.loadCredentials p.connector.settings.vaultSecretPath read t).1 &&
          !decide (manager.Overflows read)
  | _ => false

/-- Such a load leaves nothing behind but the text and the count, and shows nothing of
payments. -/
theorem failed_idle (hstep : p.step e = some (p', obs)) (hidle : p.failsIdly e = true) :
    p'.forgetErrors = p.forgetErrors ∧ obs.filter Obs.ofPayment = [] := by
  cases e with
  | request rid request t => cases hidle
  | answer rid outcome uuid t => cases hidle
  | load read t =>
      cases step_spec hstep with
      | load read t manager manager' result outputs hmanager hload =>
          have hshown :
          (outputs.map Obs.output ++ [Obs.loaded result]).filter Obs.ofPayment = [] := by
            refine List.filter_eq_nil_iff.mpr ?_
            rw [forall_mem_outputs_append (fun _ => Bool.false_ne_true)]
            intro y hy
            rw [List.mem_singleton.mp hy]
            exact Bool.false_ne_true
          refine ⟨?_, hshown⟩
          simp only [failsIdly, hmanager, Option.any_some, hload, Bool.and_eq_true,
            Bool.not_eq_true', decide_eq_false_iff_not] at hidle
          obtain ⟨rfl, hfits⟩ := hidle
          obtain ⟨error, hwritten⟩ := CredentialManager.failed_of_not_overflows
            p.connector.settings.vaultSecretPath t (congrArg Prod.fst hload) hfits
          rw [hload] at hwritten
          obtain rfl : manager' = _ := hwritten
          simp only [forgetErrors, Connector.forgetErrors, hmanager, Option.map_some,
            CredentialManager.forgetErrors]

/-- A run without the failed loads that install nothing: the other events alone are a run as
well, with the same POSTs, answers, stores, evictions and replies in the same order, and it
ends in the same state but for the text of the last error and the count of errors. -/
theorem outageInvisible (settings : Settings) (manager : CredentialManager) (es : List Event)
    (p : Process) (tr : List Obs)
    (hrun : run step (start settings manager) es = some (p, tr)) :
    ∃ p' tr', run step (start settings manager)
        (without step failsIdly (start settings manager) es) = some (p', tr') ∧
      p.forgetErrors = p'.forgetErrors ∧ tr'.Sublist tr ∧
      tr'.filter Obs.ofPayment = tr.filter Obs.ofPayment := by
  refine run_without (f := forgetErrors) ?_ ?_ es rfl hrun
  · exact fun _ _ _ _ _ h hs => step_of_forgetErrors_eq h hs
  · exact fun _ _ _ _ hs hfailed => failed_idle hs hfailed

/-- A payment while Vault is down. -/
def outagePayment : List Event :=
  [.load (.error "Vault error") (.at 1), .request 1 sampleRequest (.at 2),
    .load (.error "Vault error") (.at 3), .answer 1 (answerWith 200 "txn-1") "uuid-1" (.at 4),
    .load (.error "Vault error") (.at 5)]

theorem outageInvisible_payment :
    ∃ p tr, run step (start sampleSettings sampleManager) outagePayment = some (p, tr) ∧
      (tr.filter Obs.ofPayment).length = 4 ∧
      (without step failsIdly (start sampleSettings sampleManager) outagePayment).length = 2 ∧
      ∃ p' tr', run step (start sampleSettings sampleManager)
          (without step failsIdly (start sampleSettings sampleManager) outagePayment) =
            some (p', tr') ∧
        p.forgetErrors = p'.forgetErrors ∧ tr'.Sublist tr ∧
        tr'.filter Obs.ofPayment = tr.filter Obs.ofPayment := by
  obtain ⟨p, tr, hrun, hfour⟩ : ∃ p tr,
      run step (start sampleSettings sampleManager) outagePayment = some (p, tr) ∧
        (tr.filter Obs.ofPayment).length = 4 := exists_run (by decide +kernel)
  exact ⟨p, tr, hrun, hfour, by decide +kernel,
    outageInvisible sampleSettings sampleManager outagePayment p tr hrun⟩

end Process

end PaymentConnector
