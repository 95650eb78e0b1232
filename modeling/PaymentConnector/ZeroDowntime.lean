import PaymentConnector.Rotation

/-!
# Rotation without downtime

At every point of a rotation each replica that started with the old key should
hold a key that the gateway accepts at that point.  While the gateway accepts
both keys this is so whatever the replicas do: Vault holds one of the two.
After the last move it is so exactly for the replicas that have read the new
secret before it, and nothing in the script waits for them.

## Main results

* `step_steady`, `step_serving` — what every step of a rotation preserves.
* `zeroDowntime_iff` — the exact condition for a rotation without downtime.
-/

namespace PaymentConnector

open Library Library.Machine VaultGatewayMock CredentialManager

variable {ι : Type}

/-- The gateway accepts exactly the keys of its environment. -/
theorem acceptsKey_iff_mem {validApiKeys : Option String} {key : String} :
    acceptsKey validApiKeys key = true ↔ key ∈ getValidKeys validApiKeys := by
  unfold acceptsKey
  constructor
  · intro h
    exact of_decide_eq_true (Bool.and_eq_true_iff.mp h).2
  · intro h
    exact Bool.and_eq_true_iff.mpr
      ⟨decide_eq_true (plainKey_of_mem h).nonempty, decide_eq_true h⟩

namespace RotationScript

variable (script : RotationScript)

/-- The keys that the gateway accepts in a phase. -/
def acceptedKeys : Phase → List String
  | .start => [script.currentApiKey]
  | .removed => [script.newApiKey.apiKey]
  | _ => [script.currentApiKey, script.newApiKey.apiKey]

/-- The key that Vault holds in a phase. -/
def vaultKey (phase : Phase) : String :=
  if phase.written then script.newApiKey.apiKey else script.currentApiKey

theorem acceptedKeys_of_waiting {phase : Phase}
    (h : phase.written = true ∧ phase ≠ .removed) :
    script.acceptedKeys phase = [script.currentApiKey, script.newApiKey.apiKey] := by
  cases phase with
  | start => cases h.1
  | removed => exact absurd rfl h.2
  | bothAccepted => rfl
  | polling => rfl
  | polled => rfl
  | verified => rfl

theorem vaultKey_of_written {phase : Phase} (h : phase.written = true) :
    script.vaultKey phase = script.newApiKey.apiKey :=
  if_pos h

/-- Until the old key is removed, the gateway accepts it and the key in Vault. -/
theorem mem_acceptedKeys {phase : Phase} (h : phase ≠ .removed) :
    script.currentApiKey ∈ script.acceptedKeys phase ∧
      script.vaultKey phase ∈ script.acceptedKeys phase := by
  cases phase with
  | removed => exact absurd rfl h
  | start => exact ⟨List.mem_cons_self, List.mem_cons_self⟩
  | bothAccepted => exact ⟨List.mem_cons_self, List.mem_cons_self⟩
  | polling => exact ⟨List.mem_cons_self, List.mem_cons_of_mem _ List.mem_cons_self⟩
  | polled => exact ⟨List.mem_cons_self, List.mem_cons_of_mem _ List.mem_cons_self⟩
  | verified => exact ⟨List.mem_cons_self, List.mem_cons_of_mem _ List.mem_cons_self⟩

/-- The new secret is complete, and it never expires. -/
theorem payload_complete (secret : SecretData) (createdAt : String)
    (h : secret.data = script.payload createdAt) :
    secret.keyPair? = some (.str script.newApiKey.apiKey, .str script.newApiSecret.apiSecret) ∧
      secret.ttl? = .ok none := by
  have hkey : jsonGet secret.data "api_key" (.str "") = .ok (.str script.newApiKey.apiKey) := by
    rw [h]
    rfl
  have hsecret :
      jsonGet secret.data "api_secret" (.str "") = .ok (.str script.newApiSecret.apiSecret) := by
    rw [h]
    rfl
  have httl : jsonGet secret.data "ttl" .null = .ok .null := by
    rw [h]
    rfl
  have hkey_truthy : (Json.str script.newApiKey.apiKey).truthy = true :=
    decide_eq_true script.newApiKey.apiKey_plain.nonempty
  have hsecret_truthy : (Json.str script.newApiSecret.apiSecret).truthy = true := by
    have hnonempty : script.newApiSecret.apiSecret ≠ "" := by
      unfold Generated.apiSecret
      simp
    exact decide_eq_true hnonempty
  refine ⟨?_, ?_⟩
  · unfold SecretData.keyPair?
    rw [hkey, hsecret]
    simp [hkey_truthy, hsecret_truthy]
  · unfold SecretData.ttl?
    rw [httl]
    rfl

end RotationScript

namespace Rotation

/-! ## What every step preserves -/

/-- The gateway accepts the keys of the phase, Vault holds the key of the
phase, every replica has a manager. -/
structure Steady (script : RotationScript) (s : Rotation ι) : Prop where
  managed : ∀ i, (s.replicas i).Managed Bounded
  old_plain : PlainKey script.currentApiKey
  accepted : ∀ key ∈ script.acceptedKeys s.phase, key ∈ getValidKeys s.validApiKeys
  vaultKey : HasKey s.vault.secretData (script.vaultKey s.phase)
  complete : s.phase.written = true → ∃ createdAt, s.vault.data = script.payload createdAt

/-- A replica reads the secret of Vault or fails. -/
theorem Steady.read_key {script : RotationScript} {s : Rotation ι} (h : Steady script s)
    (failure : Option String) (t : LoadReadings) :
    ∀ secret, (⟨s.read failure, t⟩ : Load).read = .ok secret →
      secret.version ≠ none ∧ HasKey secret (script.vaultKey s.phase) := by
  intro secret hread
  cases failure with
  | some text => cases hread
  | none =>
      have hsecret : s.vault.secretData = secret := Except.ok.inj hread
      rw [← hsecret]
      exact ⟨Option.some_ne_none _, h.vaultKey⟩

section Invariants

variable [DecidableEq ι] {script : RotationScript} {s s' : Rotation ι} {e : RotationEvent ι}
  {obs : List (ι × Obs)}

theorem step_steady (h : Steady script s) (hstep : step script s e = some (s', obs)) :
    Steady script s' := by
  have hmove := step_moveSpec hstep
  have hmanaged : ∀ i, (s'.replicas i).Managed Bounded := by
    intro i
    apply move_managed hmove (h.managed i) (fun m hm => hm)
    intro path m failure t _ _ hm
    exact afterLoad_bounded hm
  cases hmove with
  | acceptBoth hphase =>
      have hold := h.vaultKey
      rw [hphase] at hold
      refine ⟨hmanaged, h.old_plain, ?_, hold, fun hw => by cases hw⟩
      rw [getValidKeys_two h.old_plain script.newApiKey.apiKey_plain]
      exact fun key hkey => hkey
  | writeVault createdAt createdTime hphase =>
      have hboth := h.accepted
      rw [hphase] at hboth
      have hcomplete := script.payload_complete
        (VaultSecret.secretData ⟨script.payload createdAt, s.vault.version + 1, some createdTime⟩)
        createdAt rfl
      exact ⟨hmanaged, h.old_plain, hboth, (jsonGet_of_keyPair? hcomplete.1).1,
        fun _ => ⟨createdAt, rfl⟩⟩
  | waiting e phase hremove hphase hphase' =>
      have hkeys := h.accepted
      have hvault := h.vaultKey
      rw [script.acceptedKeys_of_waiting hphase, ← script.acceptedKeys_of_waiting hphase'] at hkeys
      rw [script.vaultKey_of_written hphase.1, ← script.vaultKey_of_written hphase'.1] at hvault
      exact ⟨hmanaged, h.old_plain, hkeys, hvault, fun _ => h.complete hphase.1⟩
  | removeOld hphase =>
      have hnew := h.vaultKey
      have hwritten := h.complete
      rw [hphase] at hnew hwritten
      refine ⟨hmanaged, h.old_plain, ?_, hnew, hwritten⟩
      show ∀ key ∈ [script.newApiKey.apiKey], key ∈ getValidKeys (some script.newApiKey.apiKey)
      rw [getValidKeys_one script.newApiKey.apiKey_plain]
      exact fun key hkey => hkey
  | loading => exact ⟨hmanaged, h.old_plain, h.accepted, h.vaultKey, h.complete⟩
  | serving => exact ⟨hmanaged, h.old_plain, h.accepted, h.vaultKey, h.complete⟩

/-- Vault changes its key once, from the old one. -/
theorem MoveSpec.vaultKey (h : MoveSpec script s e s') :
    script.vaultKey s'.phase = script.vaultKey s.phase ∨
      script.vaultKey s.phase = script.currentApiKey := by
  cases h with
  | acceptBoth hphase => exact Or.inr (by rw [hphase]; rfl)
  | writeVault createdAt createdTime hphase => exact Or.inr (by rw [hphase]; rfl)
  | waiting e phase hremove hphase hphase' =>
      apply Or.inl
      rw [script.vaultKey_of_written hphase.1]
      exact script.vaultKey_of_written hphase'.1
  | removeOld hphase => exact Or.inl (by rw [hphase]; rfl)
  | loading => exact Or.inl rfl
  | serving => exact Or.inl rfl

theorem MoveSpec.written (h : MoveSpec script s e s') (hwritten : s.phase.written = true) :
    s'.phase.written = true := by
  cases h with
  | acceptBoth hphase =>
      rw [hphase] at hwritten
      cases hwritten
  | writeVault => rfl
  | waiting e phase hremove hphase hphase' => exact hphase'.1
  | removeOld => rfl
  | loading => exact hwritten
  | serving => exact hwritten

/-- Only its own step removes the old key. -/
theorem MoveSpec.not_removed (h : MoveSpec script s e s') (hremove : e ≠ .removeOld)
    (hphase : s.phase ≠ .removed) : s'.phase ≠ .removed := by
  cases h with
  | acceptBoth => exact fun heq => by cases heq
  | writeVault => exact fun heq => by cases heq
  | waiting e phase hremove hphase hphase' => exact hphase'.2
  | removeOld => exact absurd rfl hremove
  | loading => exact hphase
  | serving => exact hphase

/-- After the last move the gateway accepts the new key only, and the replicas
are as they were. -/
theorem step_removeOld (hstep : step script s .removeOld = some (s', obs)) :
    s'.validApiKeys = some script.newApiKey.apiKey ∧ s'.replicas = s.replicas := by
  cases step_moveSpec hstep with
  | waiting e phase hremove => exact absurd rfl hremove
  | removeOld => exact ⟨rfl, rfl⟩
  | serving e i event p obs hremove => exact absurd rfl hremove

/-- The replica holds the old key or the one that Vault holds. -/
def HoldsEither (script : RotationScript) (phase : Phase) (m : CredentialManager) : Prop :=
  m.HoldsKey script.currentApiKey ∨ m.HoldsKey (script.vaultKey phase)

/-- Until the old key is removed, a replica that holds the old key or the one
in Vault goes on doing so. -/
theorem step_holdsEither {i : ι} (h : Steady script s)
    (hholds : (s.replicas i).Managed (HoldsEither script s.phase))
    (hstep : step script s e = some (s', obs)) :
    (s'.replicas i).Managed (HoldsEither script s'.phase) := by
  have hmove := step_moveSpec hstep
  have hsame : (s'.replicas i).Managed (HoldsEither script s.phase) := by
    apply move_managed hmove ((h.managed i).and hholds) (fun m hm => hm.2)
    intro path m failure t _ _ hm
    rcases hm.2 with hold | hvault
    · exact afterLoad_holdsKey path hm.1 (h.read_key failure t) hold
    · rcases afterLoad_holdsKey path hm.1 (h.read_key failure t) hvault with hkept | hnew
      · exact Or.inr hkept
      · exact Or.inr hnew
  rcases hmove.vaultKey with hvault | hold
  · unfold HoldsEither at hsame ⊢
    rw [hvault]
    exact hsame
  · apply hsame.imp
    intro m hm
    rcases hm with hcurrent | hvault
    · exact Or.inl hcurrent
    · rw [hold] at hvault
      exact Or.inl hvault

/-! ## Loads of the new key -/

/-- The step is a load of the replica that reads the new secret while another
version is current. -/
def Acquires (i : ι) (s : Rotation ι) (e : RotationEvent ι) : Prop :=
  ∃ t, e = .load i none t ∧ s.phase.written = true ∧
    (s.replicas i).Managed (fun m => m.currentVersion ≠ some s.vault.version)

/-- A load of the new secret makes the new key the current one. -/
theorem step_acquires {i : ι} (h : Steady script s) (hacquires : Acquires i s e)
    (hstep : step script s e = some (s', obs)) :
    (s'.replicas i).Managed (CurrentKey script.newApiKey.apiKey) := by
  obtain ⟨t, rfl, hwritten, hversion⟩ := hacquires
  obtain ⟨p, o, hreplica, rfl⟩ := stepReplica_eq_some hstep
  obtain ⟨m, hm, hbounded, hchanged⟩ := (h.managed i).and hversion
  obtain ⟨createdAt, hdata⟩ := h.complete hwritten
  have hcomplete := script.payload_complete s.vault.secretData createdAt hdata
  have hcurrent := afterLoad_of_complete (s.replicas i).connector.settings.vaultSecretPath t
    hbounded hcomplete.1 hcomplete.2 rfl (Option.some_ne_none _) hchanged.symm
  refine ⟨_, ?_, hcurrent⟩
  show (Function.update s.replicas i p i).connector.credentialManager = _
  rw [Function.update_self, step_manager hm hreplica]
  rfl

/-- From then on the new key stays current. -/
theorem step_currentKey {i : ι} (h : Steady script s) (hwritten : s.phase.written = true)
    (hcurrent : (s.replicas i).Managed (CurrentKey script.newApiKey.apiKey))
    (hstep : step script s e = some (s', obs)) :
    s'.phase.written = true ∧ (s'.replicas i).Managed (CurrentKey script.newApiKey.apiKey) := by
  have hmove := step_moveSpec hstep
  have hread := h.read_key
  rw [script.vaultKey_of_written hwritten] at hread
  refine ⟨hmove.written hwritten, ?_⟩
  apply move_managed hmove ((h.managed i).and hcurrent) (fun m hm => hm.2)
  intro path m failure t _ _ hm
  exact afterLoad_currentKey path hm.1 (hread failure t) hm.2

/-- Without such a load the new key does not get into the replica. -/
theorem step_not_cachesKey {i : ι} (h : Steady script s)
    (hne : script.currentApiKey ≠ script.newApiKey.apiKey)
    (hout : (s.replicas i).Managed (fun m => ¬ m.CachesKey script.newApiKey.apiKey))
    (hnot : ¬ Acquires i s e) (hstep : step script s e = some (s', obs)) :
    (s'.replicas i).Managed (fun m => ¬ m.CachesKey script.newApiKey.apiKey) := by
  have hmove := step_moveSpec hstep
  apply move_managed hmove hout (fun m hm => hm)
  intro path m failure t he hmanager hm hcaches
  rcases afterLoad_cachesKey hcaches with hbefore | hload
  · exact hm hbefore
  · obtain ⟨secret, hread, hkey, hversion⟩ := hload
    cases failure with
    | some text => cases hread
    | none =>
        have hsecret : s.vault.secretData = secret := Except.ok.inj hread
        rw [← hsecret] at hkey hversion
        cases hwritten : s.phase.written with
        | true => exact hnot ⟨t, he, hwritten, m, hmanager, hversion.symm⟩
        | false =>
            have hold := h.vaultKey
            unfold RotationScript.vaultKey HasKey at hold
            unfold HasKey at hkey
            rw [hwritten, hkey] at hold
            exact hne (Json.str.inj (Except.ok.inj hold)).symm

end Invariants

/-! ## Whole rotations -/

/-- The state before the script has done anything: the gateway accepts the old
key, Vault holds it, and no replica that starts with it has the new key. -/
structure Begins (script : RotationScript) (s₀ : Rotation ι) : Prop where
  phase : s₀.phase = .start
  accepted : script.currentApiKey ∈ getValidKeys s₀.validApiKeys
  vault : HasKey s₀.vault.secretData script.currentApiKey
  reachable : ∀ i, (s₀.replicas i).Reachable
  fresh : ∀ i, (s₀.replicas i).Managed (CurrentKey script.currentApiKey) →
    (s₀.replicas i).Managed (fun m => ¬ m.CachesKey script.newApiKey.apiKey)

theorem Begins.steady {script : RotationScript} {s₀ : Rotation ι} (h : Begins script s₀) :
    Steady script s₀ := by
  refine ⟨fun i => (h.reachable i).managed, plainKey_of_mem h.accepted, ?_, ?_, ?_⟩
  · rw [h.phase]
    intro key hkey
    rw [List.mem_singleton.mp hkey]
    exact h.accepted
  · rw [h.phase]
    exact h.vault
  · rw [h.phase]
    exact fun hwritten => by cases hwritten

/-- Every replica that started with the old key holds a key that the gateway
accepts. -/
def Served (script : RotationScript) (s₀ s : Rotation ι) : Prop :=
  ∀ i, (s₀.replicas i).Managed (CurrentKey script.currentApiKey) →
    ∃ key, acceptsKey s.validApiKeys key = true ∧ (s.replicas i).Managed (HoldsKey key)

section Runs

variable [DecidableEq ι] {script : RotationScript} {s₀ s : Rotation ι}
  {es : List (RotationEvent ι)} {tr : List (ι × Obs)}

/-- In the run the replica reads the new secret while another version is
current. -/
def Polls (script : RotationScript) (s₀ : Rotation ι) (es : List (RotationEvent ι)) (i : ι) :
    Prop :=
  ∃ es₁ e es₂ s₁ tr₁, es = es₁ ++ e :: es₂ ∧ run (step script) s₀ es₁ = some (s₁, tr₁) ∧
    Acquires i s₁ e

theorem Polls.append {i : ι} {es fs : List (RotationEvent ι)} (h : Polls script s₀ es i) :
    Polls script s₀ (es ++ fs) i := by
  obtain ⟨es₁, e, es₂, s₁, tr₁, rfl, hrun, hacquires⟩ := h
  exact ⟨es₁, e, es₂ ++ fs, s₁, tr₁, by simp, hrun, hacquires⟩

/-- A replica that polls has the new key. -/
theorem currentKey_of_polls {i : ι} (h : Begins script s₀)
    (hrun : run (step script) s₀ es = some (s, tr)) (hpolls : Polls script s₀ es i) :
    (s.replicas i).Managed (CurrentKey script.newApiKey.apiKey) := by
  obtain ⟨es₁, e, es₂, s₁, tr₁, rfl, hrun₁, hacquires⟩ := hpolls
  obtain ⟨s₁', tr₁', s₂, o, tr₂, hrun₁', hstep, hrun₂⟩ := run_cut hrun
  rw [hrun₁, Option.some.injEq, Prod.mk.injEq] at hrun₁'
  rw [← hrun₁'.1] at hstep
  have hsteady : Steady script s₁ := run_state_invariant (fun _ _ _ _ => step_steady) h.steady hrun₁
  have hwritten : s₂.phase.written = true := by
    obtain ⟨t, -, hwritten, -⟩ := hacquires
    exact (step_moveSpec hstep).written hwritten
  have hlast : Steady script s ∧ s.phase.written = true ∧
      (s.replicas i).Managed (CurrentKey script.newApiKey.apiKey) := by
    refine run_state_invariant (I := fun s => Steady script s ∧ s.phase.written = true ∧
      (s.replicas i).Managed (CurrentKey script.newApiKey.apiKey)) ?_ ?_ hrun₂
    · intro s e s' o hI hs
      exact ⟨step_steady hI.1 hs, step_currentKey hI.1 hI.2.1 hI.2.2 hs⟩
    · exact ⟨step_steady hsteady hstep, hwritten, step_acquires hsteady hacquires hstep⟩
  exact hlast.2.2

/-- A replica that does not poll does not get the new key. -/
theorem not_cachesKey_of_not_polls {i : ι} (h : Begins script s₀)
    (hrun : run (step script) s₀ es = some (s, tr))
    (hstarted : (s₀.replicas i).Managed (CurrentKey script.currentApiKey))
    (hnot : ¬ Polls script s₀ es i) :
    (s.replicas i).Managed (fun m => ¬ m.CachesKey script.newApiKey.apiKey) := by
  have hne : script.currentApiKey ≠ script.newApiKey.apiKey := by
    intro heq
    obtain ⟨m, -, hcurrent, hout⟩ := hstarted.and (h.fresh i hstarted)
    rw [heq] at hcurrent
    exact hout hcurrent.holdsKey.cachesKey
  have hnone : Along (step script) (fun s e => ¬ Acquires i s e) s₀ es :=
    not_not.mp (fun hno => hnot (not_along_not_iff.mp hno))
  have hlast : Steady script s ∧
      (s.replicas i).Managed (fun m => ¬ m.CachesKey script.newApiKey.apiKey) := by
    refine run_invariant_along (I := fun s _ => Steady script s ∧
      (s.replicas i).Managed (fun m => ¬ m.CachesKey script.newApiKey.apiKey)) ?_
      ⟨h.steady, h.fresh i hstarted⟩ hnone hrun
    intro s tr e s' o hI hC hs
    exact ⟨step_steady hI.1 hs, step_not_cachesKey hI.1 hne hI.2 hC hs⟩
  exact hlast.2

/-- While the old key is not removed, every replica that started with it holds
a key that the gateway accepts. -/
theorem served_of_not_removed (h : Begins script s₀)
    (hrun : run (step script) s₀ es = some (s, tr)) (hphase : s.phase ≠ .removed) :
    Served script s₀ s := by
  intro i hstarted
  have hlast : Steady script s ∧ (s.replicas i).Managed (HoldsEither script s.phase) := by
    refine run_state_invariant (I := fun s => Steady script s ∧
      (s.replicas i).Managed (HoldsEither script s.phase)) ?_ ?_ hrun
    · intro s e s' o hI hs
      exact ⟨step_steady hI.1 hs, step_holdsEither hI.1 hI.2 hs⟩
    · exact ⟨h.steady, hstarted.imp (fun m hm => Or.inl hm.holdsKey)⟩
  obtain ⟨hsteady, m, hm, hholds⟩ := hlast
  have hkeys := script.mem_acceptedKeys hphase
  rcases hholds with hold | hvault
  · exact ⟨_, acceptsKey_iff_mem.mpr (hsteady.accepted _ hkeys.1), m, hm, hold⟩
  · exact ⟨_, acceptsKey_iff_mem.mpr (hsteady.accepted _ hkeys.2), m, hm, hvault⟩

/-- The old key is removed by its own step only. -/
theorem exists_removal (h : Begins script s₀) (hrun : run (step script) s₀ es = some (s, tr))
    (hphase : s.phase = .removed) : RotationEvent.removeOld ∈ es := by
  by_contra hnone
  have halong : Along (step script) (fun _ e => e ≠ .removeOld) s₀ es := by
    refine along_of_forall ?_ s₀
    intro _ e he heq
    rw [heq] at he
    exact hnone he
  have hlast : s.phase ≠ .removed := by
    refine run_invariant_along (I := fun s _ => s.phase ≠ .removed) ?_ ?_ halong hrun
    · intro s tr e s' o hI hC hs
      exact (step_moveSpec hs).not_removed hC hI
    · rw [h.phase]
      exact fun heq => by cases heq
  exact hlast hphase

end Runs

/-- A rotation is without downtime exactly when every replica that starts with
the old key reads the new secret, while another version is current there,
before the old key is removed. -/
theorem zeroDowntime_iff [DecidableEq ι] (script : RotationScript) (s₀ s : Rotation ι)
    (es : List (RotationEvent ι)) (tr : List (ι × Obs)) (h : Begins script s₀)
    (hrun : run (step script) s₀ es = some (s, tr)) :
    Throughout (step script) (Served script s₀) s₀ es ↔
      ∀ es₁ es₂, es = es₁ ++ .removeOld :: es₂ →
        ∀ i, (s₀.replicas i).Managed (CurrentKey script.currentApiKey) →
          Polls script s₀ es₁ i := by
  rw [throughout_iff_forall_run]
  constructor
  · intro hserved es₁ es₂ hes i hstarted
    rw [hes] at hrun
    obtain ⟨s₁, tr₁, s₂, o, tr₂, hrun₁, hstep, -⟩ := run_cut hrun
    have hrun₂ : run (step script) s₀ (es₁ ++ [.removeOld]) = some (s₂, tr₁ ++ o) :=
      run_append_iff.mpr ⟨s₁, tr₁, o, hrun₁, run_singleton hstep, rfl⟩
    obtain ⟨key, haccepts, hholds⟩ := hserved (es₁ ++ [.removeOld]) es₂ s₂ _ (by simp [hes]) hrun₂
      i hstarted
    by_contra hnot
    have hout := not_cachesKey_of_not_polls h hrun₁ hstarted hnot
    obtain ⟨hkeys, hreplicas⟩ := step_removeOld hstep
    rw [acceptsKey_iff_mem, hkeys,
      getValidKeys_one script.newApiKey.apiKey_plain, List.mem_singleton] at haccepts
    rw [haccepts, hreplicas] at hholds
    obtain ⟨m, -, hin, hcaches⟩ := hholds.and hout
    exact hcaches hin.cachesKey
  · intro hpolls es₁ es₂ s₁ tr₁ hes hrun₁
    by_cases hphase : s₁.phase = .removed
    · intro i hstarted
      obtain ⟨as, bs, hremoval⟩ := List.append_of_mem (exists_removal h hrun₁ hphase)
      have hpoll := hpolls as (bs ++ es₂) (by rw [hes, hremoval]; simp) i hstarted
      have hnew := currentKey_of_polls h hrun₁ (hremoval ▸ hpoll.append)
      have hsteady : Steady script s₁ :=
        run_state_invariant (fun _ _ _ _ => step_steady) h.steady hrun₁
      have haccepted := hsteady.accepted
      rw [hphase] at haccepted
      exact ⟨_, acceptsKey_iff_mem.mpr (haccepted _ List.mem_cons_self),
        hnew.imp (fun m hm => hm.holdsKey)⟩
    · exact served_of_not_removed h hrun₁ hphase

/-! ## A rotation of one replica -/

/-- From `key-v1` to a generated key. -/
def sampleScript : RotationScript where
  currentApiKey := "key-v1"
  newApiKey := ⟨"1700000000".toList, "a1b2c3d4e5f6g7h8".toList, by decide, by decide⟩
  newApiSecret := ⟨"1700000000".toList, "h8g7f6e5d4c3b2a1".toList, by decide, by decide⟩
  newVersion := 2

def sampleRotation : Rotation Unit where
  phase := .start
  validApiKeys := some "key-v1"
  vault := ⟨(sampleSecret 1 "key-v1" "secret-v1").data, 1, none⟩
  replicas := fun _ => sampleProcess

theorem sampleProcess_reachable : sampleProcess.Reachable :=
  ⟨sampleSettings, [.load (.ok (sampleSecret 1 "key-v1" "secret-v1")) (.at 0)], _, rfl⟩

private theorem sampleRotation_begins : Begins sampleScript sampleRotation where
  phase := rfl
  accepted := by decide +kernel
  vault := rfl
  reachable := fun _ => sampleProcess_reachable
  fresh := by
    intro i _
    refine ⟨sampleManager, rfl, ?_⟩
    intro hcaches
    obtain ⟨c, hc, hkey⟩ := hcaches
    have hold : c.apiKey = .str "key-v1" := by
      rw [List.mem_singleton.mp hc]
      rfl
    rw [hold, Json.str.injEq] at hkey
    exact absurd hkey (by decide +kernel)

/-- The readiness answer of a replica: neither a key nor a version. -/
def readyResponse : String :=
  "\x7b\"status\":\"ready\",\"vault_connected\":true,\"credential_status\":\"valid\"," ++
    "\"gateway_reachable\":true,\"uptime_seconds\":12.5\x7d"

/-- The moves of the script around the loads of the replica in between. -/
def rotationRun (loads : List (RotationEvent Unit)) : List (RotationEvent Unit) :=
  [.acceptBoth, .writeVault "2026-01-01T00:00:00Z" "2026-01-01T00:00:00.000Z"] ++ loads ++
    List.replicate pollAttempts (.poll readyResponse) ++ [.verify "200", .removeOld]

/-- The replica polls before whatever comes after its load. -/
private theorem sampleRotation_polls {es₁ es₂ : List (RotationEvent Unit)}
    (hes : rotationRun [.load () none (.at 30)] = es₁ ++ .removeOld :: es₂) (i : Unit) :
    Polls sampleScript sampleRotation es₁ i := by
  obtain ⟨s, tr, hrun, hwritten, hversion⟩ : ∃ s tr, run (step sampleScript) sampleRotation
      [.acceptBoth, .writeVault "2026-01-01T00:00:00Z" "2026-01-01T00:00:00.000Z"] =
        some (s, tr) ∧ s.phase.written = true ∧
          ((s.replicas ()).connector.credentialManager.any
            fun m => decide (m.currentVersion ≠ some s.vault.version)) = true :=
    exists_run (by decide +kernel)
  obtain ⟨m, hm, hother⟩ := (Option.any_eq_true _ _).mp hversion
  rcases es₁ with _ | ⟨e₁, _ | ⟨e₂, _ | ⟨e₃, es⟩⟩⟩
  · cases (List.cons.inj hes).1
  · cases (List.cons.inj (List.cons.inj hes).2).1
  · cases (List.cons.inj (List.cons.inj (List.cons.inj hes).2).2).1
  · obtain ⟨rfl, htail⟩ := List.cons.inj hes
    obtain ⟨rfl, hrest⟩ := List.cons.inj htail
    obtain ⟨rfl, -⟩ := List.cons.inj hrest
    exact ⟨[_, _], _, es, s, tr, rfl, hrun, .at 30, rfl, hwritten, m, hm, of_decide_eq_true hother⟩

theorem zeroDowntime_iff_polled :
    Throughout (step sampleScript) (Served sampleScript sampleRotation) sampleRotation
        (rotationRun [.load () none (.at 30)]) ∧
      ∀ es₁ es₂, rotationRun [.load () none (.at 30)] = es₁ ++ .removeOld :: es₂ →
        ∀ i, (sampleRotation.replicas i).Managed (CurrentKey sampleScript.currentApiKey) →
          Polls sampleScript sampleRotation es₁ i := by
  have hrun : ∃ s tr, run (step sampleScript) sampleRotation
      (rotationRun [.load () none (.at 30)]) = some (s, tr) ∧ True :=
    exists_run (by decide +kernel)
  obtain ⟨s, tr, hrun, -⟩ := hrun
  have hpolls : ∀ es₁ es₂, rotationRun [.load () none (.at 30)] = es₁ ++ .removeOld :: es₂ →
      ∀ i, (sampleRotation.replicas i).Managed (CurrentKey sampleScript.currentApiKey) →
        Polls sampleScript sampleRotation es₁ i := fun _ _ hes i _ => sampleRotation_polls hes i
  exact ⟨(zeroDowntime_iff sampleScript sampleRotation s _ tr sampleRotation_begins hrun).mpr
    hpolls, hpolls⟩

/-- The key of every cached credential is the old one. -/
def onlyOldKeys (s : Rotation Unit) : Bool :=
  match (s.replicas ()).connector.credentialManager with
  | none => false
  | some m => m.cache.values.all (fun c => isKey "key-v1" c.apiKey)

/-- Twenty answers without a match, and the old key is removed while the
replica holds no other. -/
theorem not_zeroDowntime_timeout :
    ¬ Throughout (step sampleScript) (Served sampleScript sampleRotation) sampleRotation
      (rotationRun []) := by
  intro hserved
  have hrun : ∃ s tr, run (step sampleScript) sampleRotation (rotationRun []) = some (s, tr) ∧
      (s.validApiKeys = some sampleScript.newApiKey.apiKey ∧ onlyOldKeys s = true) :=
    exists_run (by decide +kernel)
  obtain ⟨s, tr, hrun, hkeys, hold⟩ := hrun
  have hlast := throughout_iff_forall_run.mp hserved (rotationRun []) [] s tr
    (List.append_nil _).symm hrun
  obtain ⟨key, haccepts, m, hm, hholds⟩ := hlast () ⟨sampleManager, rfl, _, rfl, rfl⟩
  rw [acceptsKey_iff_mem, hkeys, getValidKeys_one sampleScript.newApiKey.apiKey_plain,
    List.mem_singleton] at haccepts
  obtain ⟨c, hc, hkey⟩ := hholds.cachesKey
  unfold onlyOldKeys at hold
  rw [hm] at hold
  have hthis := List.all_eq_true.mp hold c hc
  rw [hkey, haccepts] at hthis
  exact absurd hthis (by decide +kernel)

end Rotation

end PaymentConnector
