import PaymentConnector.Loads
import PaymentConnector.Process

/-!
# The manager of a process

Only the loads of the refresh loop touch the manager of a running process, so
what loads preserve holds of the manager in every state that is reached.
-/

namespace PaymentConnector

open Library Library.Machine

/-- The process has a manager with a property. -/
def Process.Managed (P : CredentialManager → Prop) (p : Process) : Prop :=
  ∃ m, p.connector.credentialManager = some m ∧ P m

theorem Process.Managed.and {P Q : CredentialManager → Prop} {p : Process} (hP : p.Managed P)
    (hQ : p.Managed Q) : p.Managed (fun m => P m ∧ Q m) := by
  obtain ⟨m, hm, hPm⟩ := hP
  obtain ⟨m', hm', hQm⟩ := hQ
  rw [hm, Option.some.injEq] at hm'
  rw [← hm'] at hQm
  exact ⟨m, hm, hPm, hQm⟩

theorem Process.Managed.imp {P Q : CredentialManager → Prop} {p : Process} (hP : p.Managed P)
    (h : ∀ m, P m → Q m) : p.Managed Q := by
  obtain ⟨m, hm, hPm⟩ := hP
  exact ⟨m, hm, h m hPm⟩

/-- What an event does to the manager. -/
def Event.manage (path : String) (m : CredentialManager) : Event → CredentialManager
  | .load read t => CredentialManager.afterLoad path m ⟨read, t⟩
  | _ => m

theorem step_manager {p p' : Process} {e : Event} {obs : List Obs} {m : CredentialManager}
    (hm : p.connector.credentialManager = some m) (hstep : p.step e = some (p', obs)) :
    p'.connector.credentialManager =
      some (e.manage p.connector.settings.vaultSecretPath m) := by
  cases step_spec hstep with
  | load read t manager manager' result outputs hmanager hload =>
      rw [hm, Option.some.injEq] at hmanager
      rw [← hmanager] at hload
      show some manager' = some (CredentialManager.afterLoad _ m ⟨read, t⟩)
      unfold CredentialManager.afterLoad
      rw [hload]
  | refused => exact hm
  | raised => exact hm
  | replayed => exact hm
  | posting => exact hm
  | stored => exact hm
  | failed => exact hm
  | fallback => exact hm

/-- The event is a load that installs a version which the gauge cannot hold. -/
def Process.Overflows (p : Process) : Event → Prop
  | .load read _ => p.Managed (fun m => m.Overflows read)
  | _ => False

/-- Some run leads to the process. -/
def Process.Reachable (p : Process) : Prop :=
  ∃ settings es tr, run Process.step (.start settings .init) es = some (p, tr)

theorem Process.Reachable.managed {p : Process} (h : p.Reachable) :
    p.Managed CredentialManager.Bounded := by
  obtain ⟨settings, es, tr, hrun⟩ := h
  refine run_state_invariant ?_ ⟨_, rfl, CredentialManager.init_bounded⟩ hrun
  intro p e p' obs hp hstep
  obtain ⟨m, hm, hbounded⟩ := hp
  refine ⟨_, step_manager hm hstep, ?_⟩
  cases e with
  | load => exact CredentialManager.afterLoad_bounded hbounded
  | request => exact hbounded
  | answer => exact hbounded

end PaymentConnector
