import Mathlib.Data.List.Chain
import PaymentConnector.AuditTrail

/-!
# Rotation accounting

A load that accepts a credential while there is a current version counts one rotation
and audits one rotation event, and no other load does either.  Over a run the events
then lead from the first accepted version to the current one, each starting where the
one before it ended.  The count and the event come after the version gauge, though, so a
change to a version that the gauge cannot hold is accepted and neither counted nor audited.

## Main results

* `RotationChain.concat` — what one more event does to such a chain.
* `CredentialManager.Accounted` — the invariant, kept by every load of a versioned
  secret.
* `CredentialManager.rotationAccounting` — counter, events and accepted changes agree
  after a run exactly when the gauge could hold the versions that it changed to.
-/

namespace PaymentConnector

open Library Library.Machine

/-- The rotation events among outputs, in order. -/
def rotationsOf (outputs : List Output) : List AuditEvent :=
  (auditsOf outputs).filter (fun event => event.event = "credential_rotation")

theorem rotationsOf_append (outputs outputs' : List Output) :
    rotationsOf (outputs ++ outputs') = rotationsOf outputs ++ rotationsOf outputs' := by
  rw [rotationsOf, auditsOf_append, List.filter_append]
  rfl

namespace AuditEvent

/-- The version that a rotation comes from. -/
def oldVersion? (event : AuditEvent) : Option Json := event.metadata.lookup "old_version"

/-- The version that a rotation leads to. -/
def newVersion? (event : AuditEvent) : Option Json := event.metadata.lookup "new_version"

end AuditEvent

/-! ## Chains of rotations -/

/-- Rotations that lead from the version `first` to the version `last`: the first one
starts at `first`, each starts where the one before it ended, the last one ends at
`last`, and each of them is a success between two different versions. -/
structure RotationChain (path : String) (first last : Option Int)
    (rotations : List AuditEvent) : Prop where
  starts : ∀ event ∈ rotations.head?, event.oldVersion? = some (versionJson first)
  linked : rotations.IsChain (fun event event' => event.newVersion? = event'.oldVersion?)
  ends : ∀ event ∈ rotations.getLast?, event.newVersion? = some (versionJson last)
  moves : ∀ event ∈ rotations, ∃ u v : Int, u ≠ v ∧
    event = auditRotationEvent path (some u) (some v) "success"
  stays : rotations = [] → first = last

namespace RotationChain

variable {path : String}

theorem nil (version : Option Int) : RotationChain path version version [] where
  starts := fun event hin => by cases hin
  linked := List.isChain_nil
  ends := fun event hin => by cases hin
  moves := fun event hin => by cases hin
  stays := fun _ => rfl

/-- One more rotation, from the version where the chain ends. -/
theorem concat {first : Option Int} {rotations : List AuditEvent} {u v : Int}
    (h : RotationChain path first (some u) rotations) (hne : u ≠ v) :
    RotationChain path first (some v)
      (rotations ++ [auditRotationEvent path (some u) (some v) "success"]) where
  starts := by
    intro event hin
    cases rotations with
    | nil =>
        have hevent : auditRotationEvent path (some u) (some v) "success" = event :=
          Option.some.inj hin
        rw [← hevent, h.stays rfl]
        rfl
    | cons event' rotations => exact h.starts event hin
  linked := by
    rw [List.isChain_append]
    refine ⟨h.linked, List.isChain_singleton _, ?_⟩
    intro event hlast event' hnext
    have hevent : auditRotationEvent path (some u) (some v) "success" = event' :=
      Option.some.inj hnext
    rw [← hevent, h.ends event hlast]
    rfl
  ends := by
    intro event hin
    rw [List.getLast?_concat] at hin
    have hevent : auditRotationEvent path (some u) (some v) "success" = event :=
      Option.some.inj hin
    rw [← hevent]
    rfl
  moves := by
    intro event hin
    rcases List.mem_append.mp hin with hold | hnew
    · exact h.moves event hold
    · exact ⟨u, v, hne, List.mem_singleton.mp hnew⟩
  stays := fun hnil => absurd hnil (List.concat_ne_nil _ _)

end RotationChain

namespace CredentialManager

/-! ## What a load counts -/

@[simp] theorem updateAgeMetric_credentialRotationTotal (m : CredentialManager) (now : Rat) :
    (m.updateAgeMetric now).credentialRotationTotal = m.credentialRotationTotal := by
  unfold updateAgeMetric
  split <;> rfl

theorem announce_credentialRotationTotal (path : String) (oldVersion version : Option Int)
    (m : CredentialManager) (now : Rat) :
    (announce path oldVersion version m now).1.credentialRotationTotal =
      if oldVersion ≠ none ∧ oldVersion ≠ version then m.credentialRotationTotal + 1
      else m.credentialRotationTotal := by
  unfold announce
  dsimp only
  split <;> simp

theorem loadInstalled_credentialRotationTotal (path : String) (m : CredentialManager)
    (c : Credential) (t : LoadReadings) :
    (m.loadInstalled path c t).2.1.credentialRotationTotal =
      if Gaugeable c.version ∧ m.currentVersion ≠ none ∧ m.currentVersion ≠ c.version then
        m.credentialRotationTotal + 1
      else m.credentialRotationTotal := by
  by_cases hfits : Gaugeable c.version
  · rw [m.loadInstalled_of_gaugeable path c t hfits]
    dsimp only
    rw [announce_credentialRotationTotal]
    simp only [hfits, true_and]
    rfl
  · obtain ⟨exc, heq⟩ := m.loadInstalled_of_not_gaugeable path c t hfits
    rw [heq, if_neg (fun h => hfits h.1)]
    rfl

/-- What a load does not count unless it changes the version. -/
theorem rotationTotal_of_not_changes (path : String) {m : CredentialManager} {l : Load}
    (h : ¬ m.Changes l) :
    (afterLoad path m l).credentialRotationTotal = m.credentialRotationTotal := by
  obtain ⟨read, t⟩ := l
  unfold afterLoad
  dsimp only
  have hspec := loadCredentials_spec path m read t
  generalize m.loadCredentials path read t = r at hspec ⊢
  cases hspec with
  | failed => rfl
  | unchanged => exact updateAgeMetric_credentialRotationTotal m t.age
  | installed secret t credential hpair hchanged httl =>
      exact absurd ⟨secret, _, credential.ttl, rfl, hpair, httl, hchanged⟩ h

/-- The rotations that a load audits. -/
def loadRotations (path : String) (m : CredentialManager) (l : Load) : List AuditEvent :=
  rotationsOf (m.loadCredentials path l.read l.readings).2.2

/-- A load that does not change the version audits no rotation. -/
theorem loadRotations_of_not_changes (path : String) {m : CredentialManager} {l : Load}
    (h : ¬ m.Changes l) : loadRotations path m l = [] := by
  have haudits := m.loadCredentials_audits path l.read l.readings
  unfold loadRotations rotationsOf
  generalize m.loadCredentials path l.read l.readings = r at haudits ⊢
  obtain ⟨result, m', outputs⟩ := r
  dsimp only at haudits ⊢
  generalize auditsOf outputs = events at haudits ⊢
  cases haudits with
  | accepted c haccepted =>
      rw [accepted?_eq_none_iff.mpr h] at haccepted
      cases haccepted
  | unchanged => rfl
  | incomplete => rfl
  | raised => rfl

/-- A load that accepts a credential audits the rotation to it, if there was a version
before and the gauge can hold the new one. -/
theorem loadRotations_of_accepted (path : String) {m : CredentialManager} {l : Load}
    {c : Credential} (h : m.accepted? l = some c) :
    loadRotations path m l =
      if Gaugeable c.version ∧ m.currentVersion ≠ none then
        [auditRotationEvent path m.currentVersion c.version "success"]
      else [] := by
  obtain ⟨secret, -, -, -, hchanged, hc⟩ := accepted?_eq_some h
  have hne : m.currentVersion ≠ c.version := by
    rw [hc]
    exact hchanged.symm
  unfold loadRotations rotationsOf
  rw [loadCredentials_of_accepted path h, loadInstalled_audits]
  by_cases hfits : Gaugeable c.version
  · simp only [hfits, ne_eq, hne, not_false_eq_true, and_true, true_and, if_true]
    split <;> rfl
  · simp only [hfits, false_and, if_false]
    rfl

/-- A load that returns `False` audits no rotation, even if it installs a credential. -/
theorem loadRotations_of_failed (path : String) {m : CredentialManager} {l : Load}
    (h : (m.loadCredentials path l.read l.readings).1 = false) : loadRotations path m l = [] := by
  cases haccepted : m.accepted? l with
  | none => exact loadRotations_of_not_changes path (accepted?_eq_none_iff.mp haccepted)
  | some c =>
      rw [loadCredentials_of_accepted path haccepted, ← Bool.not_eq_true, loadInstalled_result] at h
      rw [loadRotations_of_accepted path haccepted, if_neg (fun hboth => h hboth.1)]

/-! ## The invariant -/

/-- What has been counted and audited, in terms of the credentials accepted so far. -/
structure Accounted (path : String) (m : CredentialManager) (cs : List Credential)
    (rotations : List AuditEvent) : Prop where
  stores : m.Stores cs
  counted : m.credentialRotationTotal = cs.tail.countP (fun c => Gaugeable c.version)
  audited : rotations.length = cs.tail.countP (fun c => Gaugeable c.version)
  chain : (∀ c ∈ cs.tail, Gaugeable c.version) →
    RotationChain path (cs.head?.bind Credential.version) m.currentVersion rotations

theorem init_accounted (path : String) : Accounted path init [] [] where
  stores := init_stores
  counted := rfl
  audited := rfl
  chain := fun _ => .nil none

/-- Once a credential has been accepted there is a current version. -/
theorem Stores.currentVersion_ne_none {m : CredentialManager} {cs : List Credential}
    (h : m.Stores cs) (hne : cs ≠ []) : m.currentVersion ≠ none := by
  intro hnone
  have hnothing : m.getCurrentCredential = none := by
    unfold getCurrentCredential
    rw [hnone, h.tracked.blank hnone]
    rfl
  rw [h.current, List.getLast?_eq_none_iff] at hnothing
  exact hne hnothing

/-- A rotation counted and audited, if the gauge can hold the version of the accepted
credential. -/
private theorem Accounted.rotate {path : String} {m : CredentialManager} {l : Load}
    {c first : Credential} {cs : List Credential} {rotations : List AuditEvent} {u v : Int}
    (h : Accounted path m (first :: cs) rotations) (haccepted : m.accepted? l = some c)
    (hstores : (afterLoad path m l).Stores (first :: cs ++ [c]))
    (hcurrent : m.currentVersion = some u) (hversion : c.version = some v) (hne : u ≠ v) :
    Accounted path (afterLoad path m l) (first :: cs ++ [c])
      (rotations ++ loadRotations path m l) := by
  have hchanged : m.currentVersion ≠ c.version := by
    rw [hcurrent, hversion]
    exact fun hsame => hne (Option.some.inj hsame)
  have hsome : m.currentVersion ≠ none := by
    rw [hcurrent]
    exact Option.some_ne_none u
  have htail : (first :: cs ++ [c]).tail = cs ++ [c] := rfl
  have hcounted := h.counted
  have haudited := h.audited
  rw [List.tail_cons] at hcounted haudited
  rw [loadRotations_of_accepted path haccepted]
  by_cases hfits : Gaugeable c.version
  · rw [if_pos ⟨hfits, hsome⟩]
    refine ⟨hstores, ?_, ?_, ?_⟩
    · rw [afterLoad_of_accepted path haccepted, loadInstalled_credentialRotationTotal,
        if_pos ⟨hfits, hsome, hchanged⟩, htail, List.countP_append, hcounted]
      simp [hfits]
    · rw [List.length_append, htail, List.countP_append, haudited]
      simp [hfits]
    · intro hall
      have hchain := h.chain (fun c' hc' => hall c' (List.mem_append_left [c] hc'))
      rw [hcurrent] at hchain ⊢
      rw [afterLoad_of_accepted path haccepted, loadInstalled_currentVersion, hversion]
      exact hchain.concat hne
  · rw [if_neg (fun hboth => hfits hboth.1), List.append_nil]
    refine ⟨hstores, ?_, ?_, ?_⟩
    · rw [afterLoad_of_accepted path haccepted, loadInstalled_credentialRotationTotal,
        if_neg (fun hall => hfits hall.1), htail, List.countP_append, hcounted]
      simp [hfits]
    · rw [htail, List.countP_append, haudited]
      simp [hfits]
    · exact fun hall => absurd (hall c (List.mem_append_right cs List.mem_cons_self)) hfits

/-- The first credential is no rotation. -/
private theorem Accounted.first {path : String} {m : CredentialManager} {l : Load}
    {c : Credential} {rotations : List AuditEvent} (h : Accounted path m [] rotations)
    (haccepted : m.accepted? l = some c) (hstores : (afterLoad path m l).Stores [c]) :
    Accounted path (afterLoad path m l) [c] (rotations ++ loadRotations path m l) := by
  have hcurrent : m.currentVersion = none := h.stores.version
  have hrotations : rotations = [] := List.length_eq_zero_iff.mp h.audited
  have hload := afterLoad_of_accepted path haccepted
  rw [loadRotations_of_accepted path haccepted, if_neg (fun hboth => hboth.2 hcurrent),
    hrotations]
  refine ⟨hstores, ?_, rfl, fun _ => ?_⟩
  · rw [hload, loadInstalled_credentialRotationTotal, if_neg (fun hall => hall.2.1 hcurrent)]
    exact h.counted
  · rw [hload, loadInstalled_currentVersion]
    exact .nil c.version

theorem afterLoad_accounted {path : String} {m : CredentialManager} {l : Load}
    {cs : List Credential} {rotations : List AuditEvent}
    (h : Accounted path m cs rotations) (hversioned : Load.Versioned l) :
    Accounted path (afterLoad path m l) (cs ++ (m.accepted? l).toList)
      (rotations ++ loadRotations path m l) := by
  have hstores : (afterLoad path m l).Stores (cs ++ (m.accepted? l).toList) :=
    afterLoad_stores h.stores hversioned
  cases haccepted : m.accepted? l with
  | none =>
      have hsame : ¬ m.Changes l := accepted?_eq_none_iff.mp haccepted
      rw [haccepted] at hstores
      rw [loadRotations_of_not_changes path hsame]
      rw [Option.toList_none, List.append_nil] at hstores ⊢
      rw [List.append_nil]
      refine ⟨hstores, ?_, h.audited, ?_⟩
      · rw [rotationTotal_of_not_changes path hsame]
        exact h.counted
      · rw [(afterLoad_of_not_changes path hsame).2.1]
        exact h.chain
  | some c =>
      rw [haccepted] at hstores
      cases cs with
      | nil => exact h.first haccepted hstores
      | cons first cs =>
          obtain ⟨secret, hread, hpair, -, hchanged, heq⟩ := accepted?_eq_some haccepted
          obtain ⟨u, hu⟩ := Option.ne_none_iff_exists'.mp
            (h.stores.currentVersion_ne_none (List.cons_ne_nil first cs))
          obtain ⟨v, hv⟩ := Option.ne_none_iff_exists'.mp (hversioned secret _ hread hpair)
          have hversion : c.version = some v := by
            rw [heq]
            exact hv
          have hne : u ≠ v := by
            intro hsame
            rw [hv, hu, hsame] at hchanged
            exact hchanged rfl
          exact h.rotate haccepted hstores hu hversion hne

theorem run_accounted {path : String} {ls : List Load}
    (hversioned : ∀ l ∈ ls, Load.Versioned l) {m m' : CredentialManager} {tr : List Output}
    {cs : List Credential} {rotations : List AuditEvent}
    (h : Accounted path m cs rotations) (hrun : run (step path) m ls = some (m', tr)) :
    Accounted path m' (cs ++ accepted path m ls) (rotations ++ rotationsOf tr) := by
  induction ls generalizing m cs rotations tr with
  | nil =>
      obtain ⟨hm, htr⟩ := run_nil_iff.mp hrun
      rw [hm, htr, accepted, List.append_nil]
      show Accounted path m cs (rotations ++ [])
      rw [List.append_nil]
      exact h
  | cons l ls ih =>
      obtain ⟨m₁, outputs, tr₁, hstep, hrest, htr⟩ := run_cons_iff.mp hrun
      rw [step_eq, Option.some.injEq, Prod.mk.injEq] at hstep
      rw [← hstep.1] at hrest
      have hhere := afterLoad_accounted h (hversioned l List.mem_cons_self)
      have hfinal := ih (fun l' hl' => hversioned l' (List.mem_cons_of_mem l hl')) hhere hrest
      rw [htr, ← hstep.2, rotationsOf_append, accepted, ← List.append_assoc, ← List.append_assoc]
      exact hfinal

/-! ## Rotation accounting -/

/-- The counter and the number of rotation events are the number of credentials accepted
after the first one; the events lead from the first accepted version to the current one,
between different versions; and a load that returned `False` or found the current version
audited none of them. -/
structure RotationsAccounted (path : String) (ls : List Load) (m : CredentialManager)
    (tr : List Output) : Prop where
  counted : m.credentialRotationTotal = (accepted path init ls).tail.length
  audited : (rotationsOf tr).length = (accepted path init ls).tail.length
  chain : RotationChain path ((accepted path init ls).head?.bind Credential.version)
    m.currentVersion (rotationsOf tr)
  quiet : ∀ ls₁ l ls₂, ls = ls₁ ++ l :: ls₂ →
    (((afterLoads path init ls₁).loadCredentials path l.read l.readings).1 = false ∨
      ∃ secret, l.read = .ok secret ∧
        secret.version = (afterLoads path init ls₁).currentVersion) →
    loadRotations path (afterLoads path init ls₁) l = []

/-- Loads that fail or find the current version audit no rotation. -/
private theorem loadRotations_quiet {path : String} {m : CredentialManager} {l : Load}
    (h : (m.loadCredentials path l.read l.readings).1 = false ∨
      ∃ secret, l.read = .ok secret ∧ secret.version = m.currentVersion) :
    loadRotations path m l = [] := by
  rcases h with hfalse | ⟨secret, hread, hsame⟩
  · exact loadRotations_of_failed path hfalse
  · apply loadRotations_of_not_changes
    rintro ⟨secret', pair, ttl, hread', -, -, hchanged⟩
    rw [hread, Except.ok.injEq] at hread'
    rw [← hread'] at hchanged
    exact hchanged hsame

/-- After every run of loads of versioned secrets, the rotations are accounted for exactly
when the gauge can hold every version that was accepted after the first one. -/
theorem rotationAccounting (path : String) (ls : List Load)
    (hversioned : ∀ l ∈ ls, Load.Versioned l) :
    ∃ m tr, run (step path) init ls = some (m, tr) ∧
      (RotationsAccounted path ls m tr ↔
        ∀ c ∈ (accepted path init ls).tail, Gaugeable c.version) := by
  obtain ⟨tr, hrun⟩ := run_afterLoads path init ls
  have h : Accounted path (afterLoads path init ls) ([] ++ accepted path init ls)
      ([] ++ rotationsOf tr) := run_accounted hversioned (init_accounted path) hrun
  rw [List.nil_append, List.nil_append] at h
  have hall : (accepted path init ls).tail.countP (fun c => Gaugeable c.version) =
        (accepted path init ls).tail.length ↔
      ∀ c ∈ (accepted path init ls).tail, Gaugeable c.version := by
    rw [List.countP_eq_length]
    simp only [decide_eq_true_eq]
  refine ⟨_, tr, hrun, ?_⟩
  constructor
  · intro haccounted
    exact hall.mp (h.counted.symm.trans haccounted.counted)
  · intro hfits
    refine ⟨?_, ?_, h.chain hfits, fun _ _ _ _ hquiet => loadRotations_quiet hquiet⟩
    · rw [h.counted, hall.mpr hfits]
    · rw [h.audited, hall.mpr hfits]

/-- Five versions and the first one again are five rotations, back to the first one. -/
theorem rotationAccounting_rollback :
    ∃ m tr, run (step ({} : Settings).vaultSecretPath) init rollbackRun = some (m, tr) ∧
      (∀ c ∈ (accepted ({} : Settings).vaultSecretPath init rollbackRun).tail,
        Gaugeable c.version) ∧
      (accepted ({} : Settings).vaultSecretPath init rollbackRun).tail.length = 5 ∧
      RotationsAccounted ({} : Settings).vaultSecretPath rollbackRun m tr := by
  obtain ⟨m, tr, hrun, haccounted⟩ :=
    rotationAccounting ({} : Settings).vaultSecretPath rollbackRun rollbackRun_versioned
  have hfits : ∀ c ∈ (accepted ({} : Settings).vaultSecretPath init rollbackRun).tail,
      Gaugeable c.version := by decide +kernel
  exact ⟨m, tr, hrun, hfits, by decide +kernel, haccounted.mpr hfits⟩

/-- Version 1, then the least version that the gauge cannot hold. -/
def overflowLoads : List Load :=
  [sampleLoad 1 "key-v1" 0, sampleLoad floatBound "key-v2" 60]

/-- The second version is current and was no rotation. -/
theorem not_rotationsAccounted_hugeVersion :
    ∃ m tr, run (step ({} : Settings).vaultSecretPath) init overflowLoads = some (m, tr) ∧
      m.currentVersion = some floatBound ∧ m.credentialRotationTotal = 0 ∧
      (accepted ({} : Settings).vaultSecretPath init overflowLoads).tail.length = 1 ∧
      ¬ RotationsAccounted ({} : Settings).vaultSecretPath overflowLoads m tr := by
  obtain ⟨m, tr, hrun, hcurrent, hcount⟩ : ∃ m tr,
      run (step ({} : Settings).vaultSecretPath) init overflowLoads = some (m, tr) ∧
        m.currentVersion = some floatBound ∧ m.credentialRotationTotal = 0 :=
    exists_run (by decide +kernel)
  have hlength :
      (accepted ({} : Settings).vaultSecretPath init overflowLoads).tail.length = 1 := by
    decide +kernel
  refine ⟨m, tr, hrun, hcurrent, hcount, hlength, ?_⟩
  intro haccounted
  have hcounted := haccounted.counted
  rw [hlength, hcount] at hcounted
  cases hcounted

end CredentialManager

end PaymentConnector
