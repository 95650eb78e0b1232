import PaymentConnector.Process

/-!
# Expired credentials

The endpoint checks the current credential once, before the gateway client
chooses what to send, so an expired one is not sent unless it expires in the
time between the check and the start of the POST.  The fallback POST follows
after the whole first POST and sends a credential that nothing ever checked.
No expired credential is sent exactly in the runs in which no checked credential
expires on the way to its POST and no fallback that is needed has expired.
-/

namespace PaymentConnector

open Library Library.Machine

/-- The credential has no ttl, or its ttl has not run out at `now`. -/
def Credential.Outlives (c : Credential) (now : Rat) : Prop :=
  ∀ seconds, c.Lives seconds → now - c.loadedAt < seconds

/-- The credential has a ttl, and it runs out after `check` and at `send` at the latest. -/
def Credential.ExpiresWithin (c : Credential) (check send : Rat) : Prop :=
  ∃ seconds, c.Lives seconds ∧ check - c.loadedAt < seconds ∧ seconds ≤ send - c.loadedAt

/-- Outliving a reading is not being expired at it. -/
theorem Credential.outlives_iff (c : Credential) (now : Rat) :
    c.Outlives now ↔ c.status now ≠ .ok .expired := by
  rw [ne_eq, Credential.status_eq_expired_iff]
  constructor
  · intro h hexpired
    obtain ⟨seconds, hlives, hage⟩ := hexpired
    have hlt := h seconds hlives
    exact absurd hage (not_le.mpr hlt)
  · intro h seconds hlives
    have hnot : ¬ (seconds : Rat) ≤ now - c.loadedAt := fun hage => h ⟨seconds, hlives, hage⟩
    exact not_le.mp hnot

/-- What outlives the check and has expired when it is sent expired in between. -/
theorem Credential.expiresWithin_iff {c : Credential} {check send : Rat} (h : c.Outlives check) :
    c.ExpiresWithin check send ↔ c.status send = .ok .expired := by
  rw [Credential.status_eq_expired_iff]
  constructor
  · rintro ⟨seconds, hlives, -, hage⟩
    exact ⟨seconds, hlives, hage⟩
  · rintro ⟨seconds, hlives, hage⟩
    exact ⟨seconds, hlives, h seconds hlives, hage⟩

/-- What expires in between passes the check. -/
theorem Credential.ExpiresWithin.passes {c : Credential} {check send : Rat}
    (h : c.ExpiresWithin check send) : c.Timed ∧ c.status check ≠ .ok .expired := by
  obtain ⟨seconds, hlives, hcheck, -⟩ := h
  refine ⟨hlives.timed, ?_⟩
  rw [← Credential.outlives_iff]
  intro seconds' hlives'
  rw [hlives'.unique hlives]
  exact hcheck

/-- A POST carries a credential that is not expired when it is sent. -/
def SentUnexpired : Obs → Prop
  | .posted _ _ pending => pending.credential.status pending.startTime ≠ .ok .expired
  | _ => True

/-- What the check of the endpoint does not see: a current credential that
expires between the check and the start of the primary POST, and the ttl of the
fallback that a rejected call goes on with. -/
def Outlasts (p : Process) : Event → Prop
  | .request _ request t =>
      acceptsApiKey p.connector.settings request.xApiKey = true →
        ¬ request.key ∈ p.connector.idempotencyCache →
          ∀ client ∈ p.connector.gatewayClient, client.allowed t = true →
            ∀ manager ∈ p.connector.credentialManager, ∀ primary ∈ manager.getCurrentCredential,
              ¬ primary.ExpiresWithin t.check t.send
  | .answer rid outcome _ t =>
      outcome.attempt = .rejected → ∀ h ∈ p.waiting, h.rid = rid →
        ∀ fallback, h.pending.stage = .primary (some fallback) →
          fallback.oid ≠ h.pending.credential.oid → fallback.Outlives t.send
  | .load _ _ => True

private theorem step_sentUnexpired_iff {p p' : Process} {obs : List Obs} {e : Event}
    (hp : p.WellNamed) (hstep : p.step e = some (p', obs)) :
    (∀ x ∈ obs, SentUnexpired x) ↔ Outlasts p e := by
  have hsilent : ∀ o, SentUnexpired (.output o) := fun _ => trivial
  cases step_spec hstep with
  | load read t manager manager' result outputs =>
      rw [forall_mem_outputs_append hsilent, List.forall_mem_singleton]
      exact ⟨fun _ => trivial, fun _ => trivial⟩
  | refused rid request t client code detail outputs hseen hclient hcode haccepted =>
      rw [forall_mem_outputs_append hsilent, List.forall_mem_singleton]
      refine ⟨fun _ => ?_, fun _ => trivial⟩
      intro hkey _ client hclient' hallowed manager hmanager primary hprimary hexpires
      have hvalid := (manager.hasValidCredentials_iff t.check).mpr
        ⟨primary, hprimary, hexpires.passes⟩
      exact (haccepted hkey).2.2 ⟨manager, client, hmanager, hvalid, hclient', hallowed⟩
  | raised rid request t exc outputs hseen haccepted huntimed =>
      rw [forall_mem_outputs_append hsilent, List.forall_mem_singleton]
      refine ⟨fun _ => ?_, fun _ => trivial⟩
      intro _ _ _ _ _ manager hmanager primary hprimary hexpires
      obtain ⟨manager', hmanager', credential, hcredential, huntimed⟩ := huntimed
      rw [Option.mem_unique hmanager' hmanager] at hcredential
      rw [Option.mem_unique hcredential hprimary] at huntimed
      exact huntimed hexpires.passes.1
  | replayed rid request t manager cached outputs hseen haccepted hmanager hvalid hcached =>
      rw [forall_mem_outputs_append hsilent, List.forall_mem_singleton]
      exact ⟨fun _ _ hmiss => absurd (OrderedDict.mem_of_get?_eq_some hcached) hmiss,
        fun _ => trivial⟩
  | posting rid request t manager client primary hseen haccepted hmanager hvalid hmiss hready
      hprimary =>
      have habsent : ¬ request.key ∈ p.connector.idempotencyCache :=
        (OrderedDict.get?_eq_none_iff _ _).mp hmiss
      obtain ⟨manager', client', hmanager', -, hclient, hallowed⟩ := hready
      -- The check passed, so what is expired at the POST has expired since.
      obtain ⟨primary', hprimary', -, hlive⟩ := (manager.hasValidCredentials_iff t.check).mp hvalid
      rw [hprimary, Option.some.injEq] at hprimary'
      rw [← hprimary', ← Credential.outlives_iff] at hlive
      rw [List.forall_mem_singleton]
      show primary.status t.send ≠ .ok .expired ↔ _
      rw [ne_eq, ← Credential.expiresWithin_iff hlive]
      constructor
      · intro hout _ _ _ _ _ manager'' hmanager'' primary'' hprimary''
        rw [Option.mem_unique hmanager'' hmanager] at hprimary''
        rw [Option.mem_unique hprimary'' hprimary]
        exact hout
      · intro hout
        exact hout haccepted habsent client' hclient hallowed manager hmanager primary hprimary
  | stored handler outcome uuid t client inFlight outputs body response hmem haccepted hbody =>
      rw [storedObs, forall_mem_outputs_append hsilent, List.forall_mem_cons,
        List.forall_mem_append, List.forall_mem_cons, List.forall_mem_singleton]
      refine ⟨fun _ => ?_, fun _ => ?_⟩
      · intro hrejected
        rw [hbody] at hrejected
        cases hrejected
      · exact ⟨trivial, forall_mem_map (fun _ => trivial) _, trivial, trivial⟩
  | failed handler outcome uuid t client inFlight outputs reply hmem haccepted hreply hlast =>
      rw [forall_mem_outputs_append hsilent, List.forall_mem_cons, List.forall_mem_singleton]
      refine ⟨fun _ => ?_, fun _ => ⟨trivial, trivial⟩⟩
      intro hrejected h hin hrid fallback hstage hoid
      have heq : h = handler := hp.eq_of_rid hin hmem hrid
      rw [heq] at hstage hoid
      exact absurd (hlast hrejected fallback hstage) hoid
  | fallback handler outcome uuid t client inFlight outputs credential hmem hrejected hstage
      hoid =>
      rw [forall_mem_outputs_append hsilent, List.forall_mem_cons, List.forall_mem_singleton]
      show True ∧ credential.status t.send ≠ .ok .expired ↔ _
      rw [true_and, ← Credential.outlives_iff]
      constructor
      · intro hout _ h hin hrid fallback hstage' _
        have heq : h = handler := hp.eq_of_rid hin hmem hrid
        rw [heq, hstage, Stage.primary.injEq, Option.some.injEq] at hstage'
        rw [← hstage']
        exact hout
      · intro hout
        exact hout hrejected handler hmem rfl credential hstage hoid

/-- No POST of a run carries an expired credential, exactly when in the run no
current credential expires between a request's check and its primary POST, and
every fallback that a rejected call goes on with outlives the start of its POST. -/
theorem sentUnexpired_iff (settings : Settings) (manager : CredentialManager)
    (es : List Event) (p : Process) (tr : List Obs)
    (hrun : run Process.step (Process.start settings manager) es = some (p, tr)) :
    (∀ x ∈ tr, SentUnexpired x) ↔
      Along Process.step Outlasts (Process.start settings manager) es :=
  trace_iff_along (I := fun p _ => p.WellNamed)
    (fun _ _ _ _ _ h hs _ => step_wellNamed h hs)
    (fun _ _ _ _ _ h hs => step_sentUnexpired_iff h hs)
    (Process.start_wellNamed settings manager) hrun

instance : ∀ x, Decidable (SentUnexpired x)
  | .posted _ _ pending =>
      inferInstanceAs (Decidable (pending.credential.status pending.startTime ≠ .ok .expired))
  | .output _ | .loaded _ | .answered _ _ _ | .stored _ _ _ | .evicted _ | .replied _ _ _ =>
      inferInstanceAs (Decidable True)

theorem sentUnexpired_iff_sequential :
    ∃ p tr, run Process.step sampleProcess sequentialRun = some (p, tr) ∧
      (∀ x ∈ tr, SentUnexpired x) ∧ Along Process.step Outlasts sampleProcess sequentialRun := by
  have hrun : ∃ p tr, run Process.step sampleProcess sequentialRun = some (p, tr) ∧
      ∀ x ∈ tr, SentUnexpired x := exists_run (by decide +kernel)
  obtain ⟨p, tr, hrun, hunexpired⟩ := hrun
  exact ⟨p, tr, hrun, hunexpired,
    (sentUnexpired_iff sampleSettings sampleManager sequentialRun p tr hrun).mp hunexpired⟩

/-- The clock readings of an event, in code order. -/
def Event.readings : Event → List Rat
  | .load _ t => [t.loaded, t.key, t.age]
  | .request _ _ t => [t.check, t.gauge, t.allow, t.refuse, t.send]
  | .answer _ _ _ t => [t.done, t.failed, t.gauge, t.send, t.stamp]

/-- A credential with a ttl of ten seconds is rotated out after a hundred, and
the gateway rejects its successor. -/
def expiredFallbackRun : List Event :=
  [.load (.ok { sampleSecret 1 "key-v1" "secret-v1" with
      data := .obj [("api_key", .str "key-v1"), ("api_secret", .str "secret-v1"),
        ("ttl", .int 10)] }) (.at 0),
    .load (.ok (sampleSecret 2 "key-v2" "secret-v2")) (.at 100),
    .request 1 sampleRequest (.at 101),
    .answer 1 (.response 401 (.ok (.obj []))) "uuid-1" (.at 102)]

/-- The fallback that is sent had expired when the credentials were rotated. -/
theorem not_sentUnexpired_fallback :
    (expiredFallbackRun.flatMap Event.readings).Pairwise (· ≤ ·) ∧
      ∃ p tr, run Process.step (Process.start sampleSettings .init) expiredFallbackRun =
        some (p, tr) ∧ ¬ ∀ x ∈ tr, SentUnexpired x := by
  refine ⟨by decide +kernel, ?_⟩
  exact exists_run (by decide +kernel)

end PaymentConnector
