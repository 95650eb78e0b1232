import PaymentConnector.SecretReadback
import PaymentConnector.ZeroDowntime

/-!
# One rotation after another

`rotate-credentials.sh` can be run any number of times, and a run of it can break off after any
of its commands; the next one begins anew with step 1.  It takes the key that is to stay
accepted from the text of Vault's answer, and all that it knows of the rotation before is what
it reads there.

Two steps take a key away from the gateway: the removal of the old key, and, after a rotation
that broke off, the step that makes the gateway accept two keys.

## Main results

* `step_coherent` — in every rotation the script goes on from the key that Vault holds, and the
  gateway accepts that key.
* `unbroken_iff` — when no replica is ever without an accepted key.
-/

namespace PaymentConnector

open Library Library.Machine Library.JsonText VaultGatewayMock CredentialManager

variable {ι : Type}

/-- The script that was begun last, and what it works on. -/
structure Rotations (ι : Type) where
  script : Option RotationScript
  rotation : Rotation ι

inductive RotationsEvent (ι : Type)
  /-- Steps 1 and 2, with the answers of Vault for the secret and for its metadata. -/
  | begin (newApiKey newApiSecret : Generated) (creds metadata : List (List Char × Doc))
  /-- A later step of the script, or a step of a replica. -/
  | move (e : RotationEvent ι)

/-- An answer with the key of the secret in one member. -/
def showsKey (creds : List (List Char × Doc)) (data : Json) : Bool :=
  match jsonGet data "api_key" (.str ""), (Doc.obj creds).valuesOf "api_key".toList with
  | .ok (.str key), [.str s] => s = key.toList
  | _, _ => false

/-- An answer with the current version in one member. -/
def showsVersion (metadata : List (List Char × Doc)) (version : Int) : Bool :=
  match (Doc.obj metadata).valuesOf "current_version".toList with
  | [.scalar x] => 0 ≤ version ∧ x.text = Nat.toDigits 10 version.toNat
  | _ => false

namespace Rotations

/-- A begin of the script ends it where it finds no key or no number. -/
def step [DecidableEq ι] (E : Encoding) (s : Rotations ι) :
    RotationsEvent ι → Option (Rotations ι × List (ι × Obs))
  | .begin newApiKey newApiSecret creds metadata =>
      if showsKey creds s.rotation.vault.data && showsVersion metadata s.rotation.vault.version then
        match currentApiKey? ((Doc.obj creds).text E),
            newVersion? (getCurrentVersion ((Doc.obj metadata).text E)) with
        | some currentApiKey, some newVersion =>
            some
              ({ script := some
                  { currentApiKey := currentApiKey
                    newApiKey := newApiKey
                    newApiSecret := newApiSecret
                    newVersion := newVersion }
                 rotation := { s.rotation with phase := .start } }, [])
        | _, _ => none
      else none
  | .move e =>
      match s.script with
      | none => none
      | some script =>
          match s.rotation.step script e with
          | none => none
          | some (rotation, obs) => some ({ s with rotation := rotation }, obs)

/-! ## What a step can do -/

/-- None of the characters of a key is escaped. -/
def Unescaped (E : Encoding) (key : String) : Prop := ∀ c ∈ key.toList, E.escape c = [c]

theorem showsKey_iff {creds : List (List Char × Doc)} {data : Json} {key : String}
    (hkey : jsonGet data "api_key" (.str "") = .ok (.str key)) :
    showsKey creds data = true ↔
      (Doc.obj creds).valuesOf "api_key".toList = [.str key.toList] := by
  unfold showsKey
  rw [hkey]
  constructor
  · intro h
    split at h
    · rename_i key' s heq hvalues
      rw [hvalues, of_decide_eq_true h, ← Json.str.inj (Except.ok.inj heq)]
    · cases h
  · intro h
    rw [h]
    exact decide_eq_true rfl

theorem showsVersion_eq_true {metadata : List (List Char × Doc)} {version : Int}
    (h : showsVersion metadata version = true) :
    ∃ x, (Doc.obj metadata).valuesOf "current_version".toList = [.scalar x] ∧ 0 ≤ version ∧
      x.text = Nat.toDigits 10 version.toNat := by
  unfold showsVersion at h
  split at h
  · rename_i x hvalues
    exact ⟨x, hvalues, of_decide_eq_true h⟩
  · cases h

section Steps

variable [DecidableEq ι] {E : Encoding} {s s' : Rotations ι} {e : RotationsEvent ι}
  {obs : List (ι × Obs)}

/-- What a step does, where Vault holds a key that is not escaped. -/
inductive Move (E : Encoding) (s : Rotations ι) (key : String) :
    RotationsEvent ι → Rotations ι → Prop
  | begin (script : RotationScript) (creds metadata : List (List Char × Doc))
      (hkey : script.currentApiKey = key)
      (hversion : script.newVersion = (s.rotation.vault.version + 1).bmod (2 ^ 64)) :
      Move E s key (.begin script.newApiKey script.newApiSecret creds metadata)
        ⟨some script, { s.rotation with phase := .start }⟩
  | move (script : RotationScript) (e : RotationEvent ι) (rotation : Rotation ι)
      (obs : List (ι × Obs)) (hscript : s.script = some script)
      (hstep : s.rotation.step script e = some (rotation, obs)) :
      Move E s key (.move e) { s with rotation := rotation }

theorem step_move {key : String} (hkey : HasKey s.rotation.vault.secretData key)
    (hescape : Unescaped E key) (hstep : s.step E e = some (s', obs)) : Move E s key e s' := by
  cases e with
  | begin newApiKey newApiSecret creds metadata =>
      simp only [step] at hstep
      split at hstep
      · rename_i hshown
        obtain ⟨hcreds, hmetadata⟩ := Bool.and_eq_true_iff.mp hshown
        have hvalues := (showsKey_iff hkey).mp hcreds
        obtain ⟨x, hversions, hnonneg, hx⟩ := showsVersion_eq_true hmetadata
        rw [currentApiKey?_of_single E hvalues, newVersion?_of_single E hversions hx,
          stringText_eq_self_iff.mpr hescape, String.ofList_toList,
          Int.toNat_of_nonneg hnonneg] at hstep
        obtain ⟨rfl, rfl⟩ := Prod.mk.inj (Option.some.inj hstep)
        exact .begin ⟨key, newApiKey, newApiSecret, _⟩ creds metadata rfl rfl
      · cases hstep
  | move e =>
      simp only [step] at hstep
      split at hstep
      · cases hstep
      · rename_i script hscript
        split at hstep
        · cases hstep
        · rename_i rotation o hrotation
          obtain ⟨rfl, rfl⟩ := Prod.mk.inj (Option.some.inj hstep)
          exact .move script e rotation o hscript hrotation

end Steps

/-! ## What every step preserves -/

/-- The script numbers the new secret as Vault does, before and after the write. -/
def Numbered (script : RotationScript) (r : Rotation ι) : Prop :=
  script.newVersion =
    (if r.phase.written then r.vault.version else r.vault.version + 1).bmod (2 ^ 64)

/-- The rotation under way started from a key that JSON leaves as it is. -/
structure UnderWay (E : Encoding) (script : RotationScript) (r : Rotation ι) : Prop where
  steady : Rotation.Steady script r
  unescaped : Unescaped E script.currentApiKey
  numbered : Numbered script r

/-- Vault holds a key that the gateway accepts, and the last rotation began with the key that
Vault held. -/
structure Coherent (E : Encoding) (s : Rotations ι) : Prop where
  managed : ∀ i, (s.rotation.replicas i).Managed Bounded
  key : ∃ key, HasKey s.rotation.vault.secretData key ∧
    key ∈ getValidKeys s.rotation.validApiKeys ∧ Unescaped E key
  underWay : ∀ script, s.script = some script → UnderWay E script s.rotation

theorem unescaped_apiKey (E : Encoding) (g : Generated) : Unescaped E g.apiKey := by
  intro c hc
  rw [g.toList_apiKey, List.append_assoc] at hc
  apply E.word
  unfold isWord Char.isAlphanum Char.isAlpha
  rcases List.mem_append.mp hc with hfirst | hc
  · have hall : ['o', 'g', 'w', '-'].all isWord = true := by decide
    exact List.all_eq_true.mp hall c hfirst
  · rcases List.mem_append.mp hc with hseconds | hc
    · simp [List.all_eq_true.mp g.seconds_digits c hseconds]
    · rcases List.mem_cons.mp hc with rfl | hrandom
      · rfl
      · rcases Bool.or_eq_true_iff.mp (List.all_eq_true.mp g.random_chars c hrandom) with
          hlower | hdigit
        · simp [hlower]
        · simp [hdigit]

/-- In every phase the gateway accepts the key that Vault holds. -/
theorem vaultKey_mem_acceptedKeys (script : RotationScript) (phase : Phase) :
    script.vaultKey phase ∈ script.acceptedKeys phase := by
  by_cases h : phase = .removed
  · rw [h]
    exact List.mem_singleton.mpr rfl
  · exact (script.mem_acceptedKeys h).2

theorem UnderWay.key {E : Encoding} {script : RotationScript} {r : Rotation ι}
    (h : UnderWay E script r) :
    ∃ key, HasKey r.vault.secretData key ∧ key ∈ getValidKeys r.validApiKeys ∧
      Unescaped E key := by
  refine ⟨script.vaultKey r.phase, h.steady.vaultKey,
    h.steady.accepted _ (vaultKey_mem_acceptedKeys script r.phase), ?_⟩
  unfold RotationScript.vaultKey
  split
  · exact unescaped_apiKey E script.newApiKey
  · exact h.unescaped

section Invariants

variable [DecidableEq ι] {E : Encoding} {s s' : Rotations ι} {e : RotationsEvent ι}
  {obs : List (ι × Obs)}

theorem move_numbered {script : RotationScript} {r r' : Rotation ι} {e : RotationEvent ι}
    (h : Numbered script r) (hmove : Rotation.MoveSpec script r e r') : Numbered script r' := by
  unfold Numbered at h ⊢
  cases hmove with
  | acceptBoth hphase =>
      rw [hphase] at h
      exact h
  | writeVault createdAt createdTime hphase =>
      rw [hphase] at h
      exact h
  | waiting e phase hremove hphase hphase' =>
      rw [if_pos hphase.1] at h
      rw [if_pos hphase'.1]
      exact h
  | removeOld hphase =>
      rw [hphase] at h
      exact h
  | loading => exact h
  | serving => exact h

theorem step_coherent (h : s.Coherent E) (hstep : s.step E e = some (s', obs)) :
    s'.Coherent E := by
  obtain ⟨key, hkey, haccepted, hescape⟩ := h.key
  cases step_move hkey hescape hstep with
  | begin script creds metadata hcurrent hversion =>
      refine ⟨h.managed, ⟨key, hkey, haccepted, hescape⟩, ?_⟩
      rintro _ ⟨⟩
      refine ⟨⟨h.managed, ?_, ?_, ?_, fun hwritten => by cases hwritten⟩, ?_, hversion⟩
      · rw [hcurrent]
        exact plainKey_of_mem haccepted
      · intro key' hkey'
        rw [List.mem_singleton.mp hkey', hcurrent]
        exact haccepted
      · show HasKey _ script.currentApiKey
        rw [hcurrent]
        exact hkey
      · rw [hcurrent]
        exact hescape
  | move script e rotation obs hscript hrotation =>
      have hunder := h.underWay script hscript
      have hsteady := Rotation.step_steady hunder.steady hrotation
      have hnext : UnderWay E script rotation :=
        ⟨hsteady, hunder.unescaped,
          move_numbered hunder.numbered (Rotation.step_moveSpec hrotation)⟩
      refine ⟨hsteady.managed, hnext.key, fun script' hscript' => ?_⟩
      rw [hscript, Option.some.injEq] at hscript'
      rw [← hscript']
      exact hnext

end Invariants

/-! ## No replica without an accepted key -/

/-- Every replica has a key that the gateway accepts. -/
def AllServed (s : Rotations ι) : Prop :=
  ∀ i, ∃ key ∈ getValidKeys s.rotation.validApiKeys,
    (s.rotation.replicas i).Managed (HoldsKey key)

/-- A step that takes a key away finds every replica with one of those that it leaves. -/
def Keeps (s : Rotations ι) : RotationsEvent ι → Prop
  | .move .acceptBoth => ∀ script, s.script = some script → ∀ i,
      ∃ key ∈ [script.currentApiKey, script.newApiKey.apiKey],
        (s.rotation.replicas i).Managed (HoldsKey key)
  | .move .removeOld => ∀ script, s.script = some script → ∀ i,
      (s.rotation.replicas i).Managed (HoldsKey script.newApiKey.apiKey)
  | _ => True

instance (key : String) (m : CredentialManager) : Decidable (m.HoldsKey key) :=
  decidable_of_iff
    ((m.getCurrentCredential.any fun c => isKey key c.apiKey) ||
      m.getFallbackCredential.any fun c => isKey key c.apiKey) <| by
    rw [Bool.or_eq_true_iff, Option.any_eq_true, Option.any_eq_true]
    simp only [isKey_iff, HoldsKey, or_and_right, exists_or]

instance (p : Process) (P : CredentialManager → Prop) [DecidablePred P] :
    Decidable (p.Managed P) :=
  decidable_of_iff ((p.connector.credentialManager.any fun m => decide (P m)) = true) <| by
    rw [Option.any_eq_true]
    simp only [decide_eq_true_eq, Process.Managed]

section Served

variable [DecidableEq ι] {E : Encoding} {s s' : Rotations ι} {e : RotationsEvent ι}
  {obs : List (ι × Obs)}

/-- Where the accepted keys stay, a replica with one of them has one after the step: a load brings
the key that Vault holds. -/
theorem served_of_move {script : RotationScript} {r r' : Rotation ι} {e : RotationEvent ι}
    (h : Rotation.Steady script r) (hmove : Rotation.MoveSpec script r e r')
    (hkeys : r'.validApiKeys = r.validApiKeys) {i : ι} {key : String}
    (hkey : key ∈ getValidKeys r.validApiKeys) (hholds : (r.replicas i).Managed (HoldsKey key)) :
    ∃ key ∈ getValidKeys r'.validApiKeys, (r'.replicas i).Managed (HoldsKey key) := by
  have hvault := h.accepted _ (vaultKey_mem_acceptedKeys script r.phase)
  have heither : (r'.replicas i).Managed
      (fun m => m.HoldsKey key ∨ m.HoldsKey (script.vaultKey r.phase)) := by
    apply Rotation.move_managed hmove ((h.managed i).and hholds) (fun m hm => Or.inl hm.2)
    intro path m failure t _ _ hm
    exact afterLoad_holdsKey path hm.1 (h.read_key failure t) hm.2
  rw [hkeys]
  obtain ⟨m, hm, hsame | hloaded⟩ := heither
  · exact ⟨key, hkey, m, hm, hsame⟩
  · exact ⟨_, hvault, m, hm, hloaded⟩

/-- Two steps change what the gateway accepts. -/
theorem validApiKeys_of_move {script : RotationScript} {r r' : Rotation ι} {e : RotationEvent ι}
    (hmove : Rotation.MoveSpec script r e r') (hboth : e ≠ .acceptBoth) (hold : e ≠ .removeOld) :
    r'.validApiKeys = r.validApiKeys := by
  cases hmove with
  | acceptBoth => exact absurd rfl hboth
  | removeOld => exact absurd rfl hold
  | writeVault => rfl
  | waiting => rfl
  | loading => rfl
  | serving => rfl

theorem step_acceptBoth {script : RotationScript} {r r' : Rotation ι} {obs : List (ι × Obs)}
    (hstep : r.step script .acceptBoth = some (r', obs)) :
    r'.validApiKeys = some (script.currentApiKey ++ "," ++ script.newApiKey.apiKey) ∧
      r'.replicas = r.replicas := by
  simp only [Rotation.step] at hstep
  split at hstep
  · obtain ⟨rfl, -⟩ := Prod.mk.inj (Option.some.inj hstep)
    exact ⟨rfl, rfl⟩
  · cases hstep

theorem step_served (h : s.Coherent E) (hserved : s.AllServed)
    (hstep : s.step E e = some (s', obs)) : s'.AllServed ↔ s.Keeps e := by
  obtain ⟨key, hkey, haccepted, hescape⟩ := h.key
  cases step_move hkey hescape hstep with
  | begin script creds metadata => exact iff_of_true hserved trivial
  | move script e rotation obs hscript hrotation =>
      have hsteady := (h.underWay script hscript).steady
      have hother : e ≠ .acceptBoth → e ≠ .removeOld →
          ({ s with rotation := rotation } : Rotations ι).AllServed := by
        intro hboth hold i
        obtain ⟨key, hin, hholds⟩ := hserved i
        have hmove := Rotation.step_moveSpec hrotation
        exact served_of_move hsteady hmove (validApiKeys_of_move hmove hboth hold) hin hholds
      have hscripts : ∀ P : RotationScript → Prop,
          (∀ script', s.script = some script' → P script') ↔ P script := by
        intro P
        rw [hscript]
        exact ⟨fun hall => hall script rfl, fun hP _ heq => Option.some.inj heq ▸ hP⟩
      cases e with
      | acceptBoth =>
          obtain ⟨hkeys, hreplicas⟩ := step_acceptBoth hrotation
          refine Iff.trans ?_ (hscripts fun script => ∀ i,
            ∃ key ∈ [script.currentApiKey, script.newApiKey.apiKey],
              (s.rotation.replicas i).Managed (HoldsKey key)).symm
          show (∀ i, ∃ key ∈ getValidKeys rotation.validApiKeys,
            (rotation.replicas i).Managed (HoldsKey key)) ↔ _
          rw [hkeys, hreplicas, getValidKeys_two hsteady.old_plain script.newApiKey.apiKey_plain]
      | removeOld =>
          obtain ⟨hkeys, hreplicas⟩ := Rotation.step_removeOld hrotation
          refine Iff.trans ?_ (hscripts fun script => ∀ i,
            (s.rotation.replicas i).Managed (HoldsKey script.newApiKey.apiKey)).symm
          show (∀ i, ∃ key ∈ getValidKeys rotation.validApiKeys,
            (rotation.replicas i).Managed (HoldsKey key)) ↔ _
          rw [hkeys, hreplicas, getValidKeys_one script.newApiKey.apiKey_plain]
          simp only [List.mem_singleton, exists_eq_left]
      | writeVault createdAt createdTime =>
          exact iff_of_true (hother (by simp) (by simp)) trivial
      | poll healthResponse => exact iff_of_true (hother (by simp) (by simp)) trivial
      | verify httpCode => exact iff_of_true (hother (by simp) (by simp)) trivial
      | load i failure t => exact iff_of_true (hother (by simp) (by simp)) trivial
      | request i rid request t => exact iff_of_true (hother (by simp) (by simp)) trivial
      | answer i rid outcome uuid t => exact iff_of_true (hother (by simp) (by simp)) trivial

end Served

/-! ## Any number of rotations -/

/-- Before the first rotation: Vault holds an accepted key that JSON leaves as it is, and every
replica has an accepted key. -/
structure Opens (E : Encoding) (s : Rotations ι) : Prop where
  script : s.script = none
  reachable : ∀ i, (s.rotation.replicas i).Reachable
  key : ∃ key, HasKey s.rotation.vault.secretData key ∧
    acceptsKey s.rotation.validApiKeys key = true ∧ Unescaped E key
  served : s.AllServed

theorem Opens.coherent {E : Encoding} {s : Rotations ι} (h : Opens E s) : s.Coherent E := by
  obtain ⟨key, hkey, haccepts, hescape⟩ := h.key
  refine ⟨fun i => (h.reachable i).managed,
    ⟨key, hkey, acceptsKey_iff_mem.mp haccepts, hescape⟩, fun script hscript => ?_⟩
  rw [h.script] at hscript
  cases hscript

/-- In every run of any number of rotations, each broken off or not, with loads and payments in
between: Vault holds a key that the gateway accepts, a script that has written it has numbered it
as Vault has, and every replica has an accepted key at all times exactly when each step that
takes a key away finds every replica with one of those that stay. -/
theorem unbroken_iff [DecidableEq ι] (E : Encoding) (s₀ s : Rotations ι)
    (es : List (RotationsEvent ι)) (tr : List (ι × Obs)) (h : Opens E s₀)
    (hrun : run (step E) s₀ es = some (s, tr)) :
    (∃ key, HasKey s.rotation.vault.secretData key ∧
        acceptsKey s.rotation.validApiKeys key = true) ∧
      (∀ script, s.script = some script → s.rotation.phase.written = true →
        script.newVersion = s.rotation.vault.version.bmod (2 ^ 64)) ∧
      (Throughout (step E) AllServed s₀ es ↔ Along (step E) Keeps s₀ es) := by
  have hlast : s.Coherent E :=
    run_state_invariant (fun _ _ _ _ hc hs => step_coherent hc hs) h.coherent hrun
  refine ⟨?_, fun script hscript hwritten => ?_, ?_⟩
  · obtain ⟨key, hkey, haccepted, -⟩ := hlast.key
    exact ⟨key, hkey, acceptsKey_iff_mem.mpr haccepted⟩
  · have hnumbered := (hlast.underWay script hscript).numbered
    rwa [Numbered, if_pos hwritten] at hnumbered
  · exact throughout_iff_along (fun _ _ _ _ hc hs => step_coherent hc hs)
      (fun _ _ _ _ hc hserved hs => step_served hc hserved hs) h.coherent h.served hrun

instance (s : Rotations Unit) : ∀ e, Decidable (s.Keeps e)
  | .move .acceptBoth =>
      decidable_of_iff
        (∀ script ∈ s.script, ∃ key ∈ [script.currentApiKey, script.newApiKey.apiKey],
          (s.rotation.replicas ()).Managed (HoldsKey key))
        ⟨fun h script hscript _ => h script hscript, fun h script hscript => h script hscript ()⟩
  | .move .removeOld =>
      decidable_of_iff
        (∀ script ∈ s.script,
          (s.rotation.replicas ()).Managed (HoldsKey script.newApiKey.apiKey))
        ⟨fun h script hscript _ => h script hscript, fun h script hscript => h script hscript ()⟩
  | .begin _ _ _ _ | .move (.writeVault _ _) | .move (.poll _) | .move (.verify _)
  | .move (.load _ _ _) | .move (.request _ _ _ _) | .move (.answer _ _ _ _ _) =>
      inferInstanceAs (Decidable True)

def sampleRotations : Rotations Unit := ⟨none, Rotation.sampleRotation⟩

/-- An answer with the metadata of the secret. -/
def sampleMetadata (version : Nat) : List (List Char × Doc) :=
  [("data".toList, .obj
    [("current_version".toList, .scalar (natScalar version)),
      ("oldest_version".toList, .scalar (natScalar 0))])]

theorem sampleRotations_opens : Opens goEncoding sampleRotations where
  script := rfl
  reachable := fun _ => Rotation.sampleProcess_reachable
  key := ⟨"key-v1", rfl, by decide +kernel, List.forall_iff_forall_mem.mp (by decide +kernel)⟩
  served := fun _ => ⟨"key-v1", by decide +kernel, sampleManager, rfl, _, Or.inl rfl, rfl⟩

/-- A rotation that breaks off behind its third step, a whole one, and the beginning of a third. -/
def threeRotations : List (RotationsEvent Unit) :=
  [.begin firstRotated secondRotated (sampleAnswer "key-v1") (sampleMetadata 1),
    .move .acceptBoth,
    .begin secondRotated firstRotated (sampleAnswer "key-v1") (sampleMetadata 1)] ++
  (Rotation.rotationRun [.load () none (.at 30)]).map .move ++
  [.begin firstRotated secondRotated (sampleAnswer secondRotated.apiKey) (sampleMetadata 2)]

theorem unbroken_iff_three :
    ∃ s tr, run (step goEncoding) sampleRotations threeRotations = some (s, tr) ∧
      s.script.map RotationScript.currentApiKey = some secondRotated.apiKey ∧
      (∃ key, HasKey s.rotation.vault.secretData key ∧
        acceptsKey s.rotation.validApiKeys key = true) ∧
      (∀ script, s.script = some script → s.rotation.phase.written = true →
        script.newVersion = s.rotation.vault.version.bmod (2 ^ 64)) ∧
      Throughout (step goEncoding) AllServed sampleRotations threeRotations ∧
        Along (step goEncoding) Keeps sampleRotations threeRotations := by
  obtain ⟨s, tr, hrun, hcurrent⟩ : ∃ s tr,
      run (step goEncoding) sampleRotations threeRotations = some (s, tr) ∧
        s.script.map RotationScript.currentApiKey = some secondRotated.apiKey :=
    exists_run (by decide +kernel)
  have hkeeps : Along (step goEncoding) Keeps sampleRotations threeRotations := by decide +kernel
  obtain ⟨hkey, hnumbered, hserved⟩ :=
    unbroken_iff goEncoding sampleRotations s threeRotations tr sampleRotations_opens hrun
  exact ⟨s, tr, hrun, hcurrent, hkey, hnumbered, hserved.mpr hkeeps, hkeeps⟩

end Rotations

end PaymentConnector
