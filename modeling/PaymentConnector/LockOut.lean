import PaymentConnector.DualWindow
import PaymentConnector.Expiry
import PaymentConnector.FailClosed
import PaymentConnector.Managed
import PaymentConnector.OwnSteps

/-!
# Expiry lock-out

An unchanged poll refreshes the age gauge and nothing else, so as long as the
current version stays, the current credential is the same object with the same
`loaded_at`, and its status moves one way only.  Once it is expired every
request that passes key validation is refused before the idempotency cache is
looked at, and a refused request is never suspended.

## Main results

* `throughout_atVersion_iff` — the current version stays exactly when every load fails
  without installing anything or returns that version.
* `request_locked` — behind an expired credential a request is refused on the spot.
* `expiryLockOut` — both parts, from any reachable state.
-/

namespace PaymentConnector

open Library Library.Machine

/-! ## The life of a credential -/

/-- The status moves from the first to the second as time goes by. -/
inductive CredentialStatus.AgesTo : CredentialStatus → CredentialStatus → Prop
  | stays (status : CredentialStatus) : AgesTo status status
  | nearsExpiry : AgesTo .valid .expiringSoon
  | passesBoth : AgesTo .valid .expired
  | expires : AgesTo .expiringSoon .expired

/-- A status that can be read moves so, and one that cannot be read stays like this. -/
inductive StatusAges : Except PyExc CredentialStatus → Except PyExc CredentialStatus → Prop
  | read {before after : CredentialStatus} (h : before.AgesTo after) :
      StatusAges (.ok before) (.ok after)
  | raised (exc : PyExc) : StatusAges (.error exc) (.error exc)

/-- One credential, looked at twice. -/
theorem Credential.status_ages (c : Credential) {t now : Rat} (h : t ≤ now) :
    StatusAges (c.status t) (c.status now) := by
  unfold Credential.status
  cases c.ttl with
  | none => exact .read (.stays _)
  | some ttl =>
      dsimp only
      cases pyFloat ttl with
      | error exc => exact .raised exc
      | ok seconds =>
          dsimp only
          have hless : (seconds : Rat) - c.ageSeconds now ≤ seconds - c.ageSeconds t := by
            unfold Credential.ageSeconds
            linarith
          by_cases hexpired : (seconds : Rat) - c.ageSeconds t ≤ 0
          · rw [if_pos hexpired, if_pos (hless.trans hexpired)]
            exact .read (.stays _)
          · rw [if_neg hexpired]
            by_cases hsoon : (seconds : Rat) - c.ageSeconds t ≤ expirySoonThresholdSeconds
            · rw [if_pos hsoon, if_pos (hless.trans hsoon)]
              split
              · exact .read .expires
              · exact .read (.stays _)
            · rw [if_neg hsoon]
              split
              · exact .read .passesBoth
              · split
                · exact .read .nearsExpiry
                · exact .read (.stays _)

/-- An expired credential stays expired. -/
theorem StatusAges.eq_expired {status : Except PyExc CredentialStatus}
    (h : StatusAges (.ok .expired) status) : status = .ok .expired := by
  cases h with
  | read h =>
      cases h
      rfl

namespace CredentialManager

/-- As long as the current credential is the same, its status only ages. -/
theorem credentialStatus_ages {m m' : CredentialManager} {t now : Rat} (h : t ≤ now)
    (hsame : m'.getCurrentCredential = m.getCurrentCredential) :
    StatusAges (m.credentialStatus t) (m'.credentialStatus now) := by
  unfold credentialStatus
  rw [hsame]
  cases m.getCurrentCredential with
  | none => exact .read (.stays _)
  | some c => exact c.status_ages h

/-- A load keeps the current version exactly when, if it returns `True`, it read that
version, and it does not install one that the gauge cannot hold. -/
theorem afterLoad_currentVersion_iff (path : String) (m : CredentialManager) (read : VaultRead)
    (t : LoadReadings) :
    (afterLoad path m ⟨read, t⟩).currentVersion = m.currentVersion ↔
      ((m.loadCredentials path read t).1 = true → ∀ secret, read = .ok secret →
        secret.version = m.currentVersion) ∧ ¬ m.Overflows read := by
  rw [overflows_iff path m read t]
  unfold afterLoad
  dsimp only
  have hspec := loadCredentials_spec path m read t
  generalize m.loadCredentials path read t = r at hspec ⊢
  cases hspec with
  | failed => simp
  | unchanged secret t pair outputs hpair hversion => simp [hversion]
  | installed secret t credential hpair hchanged httl hversion =>
      rw [loadInstalled_currentVersion, hversion]
      refine iff_of_false hchanged ?_
      rintro ⟨hsame, hfits⟩
      cases hresult : (m.loadInstalled path credential t).1 with
      | true => exact hchanged (hsame hresult secret rfl)
      | false => exact hfits ⟨hresult, hchanged⟩

end CredentialManager

/-! ## Polling one version -/

/-- The manager of the process is there and has this current version. -/
def Process.AtVersion (version : Option Int) : Process → Prop :=
  Process.Managed (fun m => m.currentVersion = version)

/-- The manager of the process is there and has this current credential. -/
def Process.Holding (current : Option Credential) : Process → Prop :=
  Process.Managed (fun m => m.getCurrentCredential = current)

/-- A load fails or returns a secret of this version. -/
def Polls (version : Option Int) (p : Process) : Event → Prop
  | .load read t => ∀ manager secret, p.connector.credentialManager = some manager →
      (manager.loadCredentials p.connector.settings.vaultSecretPath read t).1 = true →
        read = .ok secret → secret.version = version
  | _ => True

/-- From a state at this version, a step stays at it exactly when it polls it and
installs nothing that the gauge cannot hold. -/
private theorem step_atVersion_iff {version : Option Int} {p p' : Process} {e : Event}
    {obs : List Obs} (h : p.AtVersion version) (hstep : p.step e = some (p', obs)) :
    p'.AtVersion version ↔ Polls version p e ∧ ¬ p.Overflows e := by
  obtain ⟨m, hm, hversion⟩ := h
  have hnext := step_manager hm hstep
  have hsame : p'.AtVersion version ↔
      (e.manage p.connector.settings.vaultSecretPath m).currentVersion = m.currentVersion := by
    unfold Process.AtVersion Process.Managed
    rw [hnext, hversion]
    simp
  rw [hsame]
  cases e with
  | load read t =>
      show (CredentialManager.afterLoad _ m ⟨read, t⟩).currentVersion = _ ↔ _
      have hpolls : Polls version p (.load read t) ↔
          ((m.loadCredentials p.connector.settings.vaultSecretPath read t).1 = true →
            ∀ secret, read = .ok secret → secret.version = version) := by
        simp only [Polls, hm, Option.some.injEq]
        exact ⟨fun h hresult secret => h m secret rfl hresult,
          fun h _ secret heq hresult => h (heq ▸ hresult) secret⟩
      have hoverflows : p.Overflows (.load read t) ↔ m.Overflows read := by
        simp only [Process.Overflows, Process.Managed, hm, Option.some.injEq, exists_eq_left']
      rw [CredentialManager.afterLoad_currentVersion_iff, hversion, hpolls, hoverflows]
  | request => exact ⟨fun _ => ⟨trivial, id⟩, fun _ => rfl⟩
  | answer => exact ⟨fun _ => ⟨trivial, id⟩, fun _ => rfl⟩

/-- The current version stays throughout a run exactly when every load of the
run fails or returns a secret of that version, and none installs another one
that the gauge cannot hold. -/
theorem throughout_atVersion_iff {version : Option Int} {p p' : Process} {es : List Event}
    {tr : List Obs} (h : p.AtVersion version) (hrun : run Process.step p es = some (p', tr)) :
    Throughout Process.step (Process.AtVersion version) p es ↔
      Along Process.step (fun p e => Polls version p e ∧ ¬ p.Overflows e) p es :=
  throughout_iff_along (I := fun _ => True) (fun _ _ _ _ _ _ => trivial)
    (fun _ _ _ _ _ h hs => step_atVersion_iff h hs) trivial h hrun

/-- A step that stays at the version keeps the current credential. -/
private theorem step_holding {version : Option Int} {current : Option Credential}
    {p p' : Process} {e : Event} {obs : List Obs} (hversion : p.AtVersion version)
    (hholding : p.Holding current) (hversion' : p'.AtVersion version)
    (hstep : p.step e = some (p', obs)) : p'.Holding current := by
  obtain ⟨m, hm, hcurrent⟩ := hholding
  obtain ⟨_, hm', hversion⟩ := hversion
  rw [hm, Option.some.injEq] at hm'
  rw [← hm'] at hversion
  obtain ⟨m', hnext, hversion'⟩ := hversion'
  rw [step_manager hm hstep, Option.some.injEq] at hnext
  refine ⟨_, step_manager hm hstep, ?_⟩
  cases e with
  | load read t =>
      have hsame : ¬ m.Changes ⟨read, t⟩ := by
        rw [CredentialManager.changes_iff p.connector.settings.vaultSecretPath, not_not, hversion,
          ← hversion', ← hnext]
        rfl
      have hkept := CredentialManager.afterLoad_of_not_changes
        p.connector.settings.vaultSecretPath hsame
      exact (CredentialManager.getCurrentCredential_congr hkept.1 hkept.2.1).trans hcurrent
  | request => exact hcurrent
  | answer => exact hcurrent

/-- While the version stays, the current credential stays the same object. -/
theorem run_holding {version : Option Int} {current : Option Credential} {p p' : Process}
    {es : List Event} {tr : List Obs} (hversion : p.AtVersion version)
    (hholding : p.Holding current)
    (hkept : Along Process.step (fun p e => Polls version p e ∧ ¬ p.Overflows e) p es)
    (hrun : run Process.step p es = some (p', tr)) : p'.Holding current := by
  have hboth : p'.AtVersion version ∧ p'.Holding current :=
    run_invariant_along (C := fun p e => Polls version p e ∧ ¬ p.Overflows e)
      (I := fun p _ => p.AtVersion version ∧ p.Holding current)
      (fun _ _ _ _ _ h hkept hs =>
        have hnext := (step_atVersion_iff h.1 hs).mpr hkept
        ⟨hnext, step_holding h.1 h.2 hnext hs⟩)
      ⟨hversion, hholding⟩ hkept hrun
  exact hboth.2

/-! ## Refusals -/

/-- Behind an expired credential a request that passes key validation is
answered 503 on the spot, and is over. -/
theorem request_locked {settings : Settings} {p p' : Process} {rid : Nat}
    {request : AuthorizeRequest} {t : StartReadings} {obs : List Obs} {c : Credential}
    (hp : p.WellNamed) (hvalidated : Validated settings p) (hholding : p.Holding (some c))
    (hexpired : c.status t.check = .ok .expired)
    (haccepts : acceptsApiKey settings request.xApiKey = true)
    (hstep : p.step (.request rid request t) = some (p', obs)) :
    p'.Over rid ∧ ¬ rid ∈ p.seen ∧ ∃ (outputs : List Output) (detail : String),
      obs = outputs.map Obs.output ++ [.replied rid request (.httpException 503 detail)] := by
  obtain ⟨m, hm, hcurrent⟩ := hholding
  have hinvalid : ¬ m.hasValidCredentials t.check = .ok true := by
    intro hvalid
    obtain ⟨c', hc', -, hlive⟩ := (m.hasValidCredentials_iff _).mp hvalid
    rw [hcurrent, Option.some.injEq] at hc'
    rw [← hc'] at hlive
    exact hlive hexpired
  cases step_spec hstep with
  | refused rid request t client code detail outputs hseen hclient hcode haccepted =>
      rw [hvalidated.settings_eq] at haccepted
      obtain ⟨hcode', -⟩ := haccepted haccepts
      refine ⟨⟨List.mem_cons_self, ?_⟩, hseen, outputs, detail, by rw [hcode']⟩
      intro h hin hrid
      rw [← hrid] at hseen
      exact hseen (hp.named h hin)
  | raised rid request t exc outputs hseen haccepted huntimed =>
      obtain ⟨m', hm', c', hc', hraises⟩ := huntimed
      obtain rfl : m = m' := Option.some.inj (hm.symm.trans hm')
      obtain rfl : c = c' := Option.some.inj (hcurrent.symm.trans hc')
      exact absurd ((c.status_ok_iff t.check).mp ⟨_, hexpired⟩) hraises
  | replayed rid request t manager cached outputs hseen haccepted hmanager hvalid =>
      rw [hm, Option.some.injEq] at hmanager
      rw [← hmanager] at hvalid
      exact absurd hvalid hinvalid
  | posting rid request t manager client primary hseen haccepted hmanager hvalid =>
      rw [hm, Option.some.injEq] at hmanager
      rw [← hmanager] at hvalid
      exact absurd hvalid hinvalid

/-- In a run the request is answered with this reply, and nothing else is
shown of it. -/
def AnsweredOnly (rid : Nat) (request : AuthorizeRequest) (reply : Reply) (tr : List Obs) :
    Prop :=
  .replied rid request reply ∈ tr ∧ ∀ x ∈ tr, x.rid? = some rid → x = .replied rid request reply

/-- What one stretch shows of a request, between a run that came before its
arrival and one after its end, is all that is shown of it. -/
private theorem answeredOnly_of_cut {p p₁ p₂ p' : Process} {es fs : List Event}
    {tr₁ tr₂ : List Obs} {rid : Nat} {request : AuthorizeRequest} {reply : Reply}
    {outputs : List Output} (hp : p.WellNamed) (hbefore : run Process.step p es = some (p₁, tr₁))
    (hfresh : ¬ rid ∈ p₁.seen) (hp₂ : p₂.WellNamed) (hover : p₂.Over rid)
    (hafter : run Process.step p₂ fs = some (p', tr₂)) :
    AnsweredOnly rid request reply
      (tr₁ ++ (outputs.map Obs.output ++ [.replied rid request reply] ++ tr₂)) := by
  refine ⟨by simp, ?_⟩
  intro x hx hrid
  rcases List.mem_append.mp hx with hearly | hlate
  · exact absurd ((run_seen hp hbefore).2 x hearly rid hrid) hfresh
  · rcases List.mem_append.mp hlate with hhere | hlater
    · rcases List.mem_append.mp hhere with hout | hreply
      · obtain ⟨o, -, rfl⟩ := List.mem_map.mp hout
        cases hrid
      · exact List.mem_singleton.mp hreply
    · exact absurd hrid (run_over hp₂ hover hafter x hlater)

/-! ## The lock-out -/

/-- The manager of a process that was reached labels its current credential. -/
theorem run_labelled {settings : Settings} {es : List Event} {p : Process} {tr : List Obs}
    (hrun : run Process.step (Process.start settings .init) es = some (p, tr)) :
    p.Managed CredentialManager.Labelled := by
  refine run_state_invariant ?_ ⟨_, rfl, CredentialManager.init_labelled⟩ hrun
  intro p e p' obs hp hstep
  obtain ⟨m, hm, hlabelled⟩ := hp
  refine ⟨_, step_manager hm hstep, ?_⟩
  cases e with
  | load => exact CredentialManager.afterLoad_labelled hlabelled
  | request => exact hlabelled
  | answer => exact hlabelled

/-- A request that arrives in a run after the expiry. -/
private theorem run_locked {settings : Settings} {es fs : List Event} {p p' : Process}
    {tr₀ tr : List Obs} {version : Option Int} {c : Credential} {t now : Rat} {rid : Nat}
    {request : AuthorizeRequest} {t' : StartReadings}
    (hreached : run Process.step (Process.start settings .init) es = some (p, tr₀))
    (hversion : p.AtVersion version) (hholding : p.Holding (some c))
    (hkept : Along Process.step (fun p e => Polls version p e ∧ ¬ p.Overflows e) p fs)
    (hexpired : c.status t = .ok .expired)
    (hlater : ∀ r ∈ fs.flatMap Event.readings ++ [now], t ≤ r)
    (hin : .request rid request t' ∈ fs) (haccepts : acceptsApiKey settings request.xApiKey = true)
    (hrun : run Process.step p fs = some (p', tr)) :
    ∃ detail, AnsweredOnly rid request (.httpException 503 detail) tr := by
  obtain ⟨fs₁, fs₂, rfl⟩ := List.append_of_mem hin
  have hcheck : t ≤ t'.check := hlater _ (by simp [Event.readings])
  obtain ⟨p₁, tr₁, tr', hbefore, hrest, rfl⟩ := run_append_iff.mp hrun
  obtain ⟨p₂, obs, tr₂, hstep, hafter, rfl⟩ := run_cons_iff.mp hrest
  have hnamed : p.WellNamed :=
    run_state_invariant (fun _ _ _ _ h hs => step_wellNamed h hs)
      (Process.start_wellNamed _ _) hreached
  have hvalidated : Validated settings p₁ :=
    run_state_invariant (fun _ _ _ _ h hs => step_validated h hs)
      (run_state_invariant (fun _ _ _ _ h hs => step_validated h hs)
        (start_validated _ _) hreached) hbefore
  have hnamed₁ := (run_seen hnamed hbefore).1
  have hholding₁ := run_holding hversion hholding (along_of_append hkept) hbefore
  have hexpired₁ : c.status t'.check = .ok .expired := by
    have hages := c.status_ages hcheck
    rw [hexpired] at hages
    exact hages.eq_expired
  obtain ⟨hover, hfresh, outputs, detail, rfl⟩ :=
    request_locked hnamed₁ hvalidated hholding₁ hexpired₁ haccepts hstep
  exact ⟨detail, answeredOnly_of_cut hnamed hbefore hfresh (step_wellNamed hnamed₁ hstep)
    hover hafter⟩

/-- The status is still expired at the end of a run, and every request of the run with an
accepted API key was answered 503, with no POST and no replay. -/
def LockedOut (settings : Settings) (fs : List Event) (now : Rat) (p' : Process)
    (tr : List Obs) : Prop :=
  p'.Managed (fun m' => m'.credentialStatus now = .ok .expired) ∧
    ∀ rid request t', .request rid request t' ∈ fs →
      acceptsApiKey settings request.xApiKey = true →
        ∃ detail, AnsweredOnly rid request (.httpException 503 detail) tr

/-- From any reachable state: once the current credential is expired, it stays so and locks
all requests out as long as every load fails or returns its version, provided that none of
the failed loads installs a version that the gauge cannot hold; and while the current version
does not change, the current credential stays the same object and its status only ages. -/
theorem expiryLockOut (settings : Settings) (es : List Event) (p : Process) (tr₀ : List Obs)
    (hreached : run Process.step (Process.start settings .init) es = some (p, tr₀))
    (m : CredentialManager) (hm : p.connector.credentialManager = some m)
    (c : Credential) (hc : m.getCurrentCredential = some c)
    (t now : Rat) (fs : List Event) (p' : Process) (tr : List Obs)
    (hclock : (t :: (fs.flatMap Event.readings ++ [now])).Pairwise (· ≤ ·))
    (hrun : run Process.step p fs = some (p', tr)) :
    (∀ v, m.currentVersion = some v → c.version = some v) ∧
      (m.credentialStatus t = .ok .expired → Along Process.step (Polls m.currentVersion) p fs →
        Along Process.step (fun p e => ¬ p.Overflows e) p fs → LockedOut settings fs now p' tr) ∧
        (Throughout Process.step (Process.AtVersion m.currentVersion) p fs →
          p'.Managed (fun m' => m'.getCurrentCredential = some c ∧
            StatusAges (m.credentialStatus t) (m'.credentialStatus now))) := by
  have hlater : ∀ r ∈ fs.flatMap Event.readings ++ [now], t ≤ r := (List.pairwise_cons.mp hclock).1
  have hnow : t ≤ now := hlater now (by simp)
  have hversion : p.AtVersion m.currentVersion := ⟨m, hm, rfl⟩
  have hholding : p.Holding (some c) := ⟨m, hm, hc⟩
  have hstatus : m.credentialStatus t = c.status t := by
    unfold CredentialManager.credentialStatus
    rw [hc]
  refine ⟨?_, ?_, ?_⟩
  · intro v hv
    obtain ⟨m', hm', hlabelled⟩ := run_labelled hreached
    rw [hm, Option.some.injEq] at hm'
    rw [← hm'] at hlabelled
    exact hlabelled.version v c hv hc
  · intro hexpired hpolls hfits
    have hkept := along_and.mpr ⟨hpolls, hfits⟩
    rw [hstatus] at hexpired
    refine ⟨?_, ?_⟩
    · apply (run_holding hversion hholding hkept hrun).imp
      intro m' hm'
      have hages := m.credentialStatus_ages hnow (hm'.trans hc.symm)
      rw [hstatus, hexpired] at hages
      exact hages.eq_expired
    · intro rid request t' hin haccepts
      exact run_locked hreached hversion hholding hkept hexpired hlater hin haccepts hrun
  · intro hstays
    have hkept := (throughout_atVersion_iff hversion hrun).mp hstays
    apply (run_holding hversion hholding hkept hrun).imp
    intro m' hm'
    exact ⟨hm', m.credentialStatus_ages hnow (hm'.trans hc.symm)⟩

/-- A secret with a ttl of ten seconds. -/
def shortLivedSecret : SecretData where
  data := .obj [("api_key", .str "key-v1"), ("api_secret", .str "secret-v1"), ("ttl", .int 10)]
  version := some 1

/-- Vault fails and then returns the version that has expired. -/
def lockedOutRun : List Event :=
  [.load (.error "Vault error") (.at 16), .request 1 sampleRequest (.at 17),
    .load (.ok shortLivedSecret) (.at 18)]

theorem lockedOutRun_polls (p : Process) : Along Process.step (Polls (some 1)) p lockedOutRun := by
  apply along_of_forall
  intro p e he
  simp only [lockedOutRun, List.mem_cons, List.not_mem_nil, or_false] at he
  rcases he with rfl | rfl | rfl
  · exact fun _ _ _ _ hread => by cases hread
  · trivial
  · intro _ secret _ _ hread
    rw [← Except.ok.inj hread]
    rfl

theorem lockedOutRun_fits (p : Process) :
    Along Process.step (fun p e => ¬ p.Overflows e) p lockedOutRun := by
  apply along_of_forall
  intro p e he
  simp only [lockedOutRun, List.mem_cons, List.not_mem_nil, or_false] at he
  rcases he with rfl | rfl | rfl
  · rintro ⟨m, -, secret, pair, ttl, hread, -⟩
    cases hread
  · exact id
  · rintro ⟨m, -, secret, pair, ttl, hread, -, -, -, hversion⟩
    rw [← Except.ok.inj hread] at hversion
    exact hversion (by decide +kernel)

theorem expiryLockOut_outage :
    ∃ p tr₀ p' tr,
      run Process.step (Process.start sampleSettings .init)
        [.load (.ok shortLivedSecret) (.at 0)] = some (p, tr₀) ∧
      run Process.step p lockedOutRun = some (p', tr) ∧
        p'.Managed (fun m => m.credentialStatus 19 = .ok .expired) ∧
          ∃ detail, AnsweredOnly 1 sampleRequest (.httpException 503 detail) tr := by
  obtain ⟨p, tr₀, hreached, hmanager, hrun⟩ : ∃ p tr₀,
      run Process.step (Process.start sampleSettings .init)
        [.load (.ok shortLivedSecret) (.at 0)] = some (p, tr₀) ∧
      (p.connector.credentialManager.any fun m => m.currentVersion = some 1 ∧
        m.credentialStatus 15 = .ok .expired ∧ m.getCurrentCredential.isSome) = true ∧
        (run Process.step p lockedOutRun).isSome = true := exists_run (by decide +kernel)
  obtain ⟨m, hm, hdecided⟩ := (Option.any_eq_true _ _).mp hmanager
  obtain ⟨hversion, hexpired, hcurrent⟩ := of_decide_eq_true hdecided
  obtain ⟨c, hc⟩ := Option.isSome_iff_exists.mp hcurrent
  obtain ⟨⟨p', tr⟩, hrun⟩ := Option.isSome_iff_exists.mp hrun
  have hpolls : Along Process.step (Polls m.currentVersion) p lockedOutRun := by
    rw [hversion]
    exact lockedOutRun_polls p
  obtain ⟨-, hlocked, -⟩ := expiryLockOut sampleSettings _ p tr₀ hreached m hm c hc 15 19
    lockedOutRun p' tr (by decide +kernel) hrun
  obtain ⟨hstays, hrequests⟩ := hlocked hexpired hpolls (lockedOutRun_fits p)
  exact ⟨p, tr₀, p', tr, hreached, hrun, hstays,
    hrequests 1 sampleRequest (.at 17) (by simp [lockedOutRun]) (by decide)⟩

/-- A version that the gauge cannot hold, after the expiry. -/
def overflowingRun : List Event :=
  [.load (.ok (sampleSecret floatBound "key-v2" "secret-v2")) (.at 30),
    .request 1 sampleRequest (.at 31)]

/-- The only load of the run returns `False`, so that it polls whatever version there is;
its credential is the current one afterwards, is valid and is posted with. -/
theorem not_lockedOut_hugeVersion :
    ∃ p tr₀ p' tr,
      run Process.step (Process.start sampleSettings .init)
        [.load (.ok shortLivedSecret) (.at 0)] = some (p, tr₀) ∧
      run Process.step p overflowingRun = some (p', tr) ∧
        p.Managed (fun m => m.currentVersion = some 1 ∧ m.credentialStatus 20 = .ok .expired) ∧
          Along Process.step (Polls (some 1)) p overflowingRun ∧
            p'.Managed (fun m => m.credentialStatus 32 = .ok .valid) ∧
              ¬ LockedOut sampleSettings overflowingRun 32 p' tr := by
  obtain ⟨p, tr₀, hreached, hmanager, hfails, hcontinued⟩ : ∃ p tr₀,
      run Process.step (Process.start sampleSettings .init)
        [.load (.ok shortLivedSecret) (.at 0)] = some (p, tr₀) ∧
      (p.connector.credentialManager.any fun m => m.currentVersion = some 1 ∧
        m.credentialStatus 20 = .ok .expired) = true ∧
      (p.connector.credentialManager.all fun m =>
        !(m.loadCredentials p.connector.settings.vaultSecretPath
          (.ok (sampleSecret floatBound "key-v2" "secret-v2")) (.at 30)).1) = true ∧
      ((run Process.step p overflowingRun).any fun r => r.1.connector.credentialManager.any
        fun m => m.credentialStatus 32 = .ok .valid) = true := exists_run (by decide +kernel)
  obtain ⟨⟨p', tr⟩, hrun, hvalid⟩ := (Option.any_eq_true _ _).mp hcontinued
  obtain ⟨m, hm, hdecided⟩ := (Option.any_eq_true _ _).mp hmanager
  obtain ⟨m', hm', hvalid⟩ := (Option.any_eq_true _ _).mp hvalid
  have hstatus : m'.credentialStatus 32 = .ok .valid := of_decide_eq_true hvalid
  have hpolls : Polls (some 1) p
      (.load (.ok (sampleSecret floatBound "key-v2" "secret-v2")) (.at 30)) := by
    intro manager secret hmanager hresult
    rw [Option.all_eq_true] at hfails
    have hfalse := hfails manager hmanager
    rw [hresult] at hfalse
    cases hfalse
  refine ⟨p, tr₀, p', tr, hreached, hrun, ⟨m, hm, of_decide_eq_true hdecided⟩,
    ⟨hpolls, fun _ _ _ => ⟨trivial, fun _ _ _ => trivial⟩⟩, ⟨m', hm', hstatus⟩, ?_⟩
  rintro ⟨⟨m'', hm'', hexpired⟩, -⟩
  obtain rfl : m' = m'' := Option.some.inj (hm'.symm.trans hm'')
  rw [hstatus] at hexpired
  cases hexpired

end PaymentConnector
