import PaymentConnector.Process

/-!
# Failing closed

A request that passes body and API-key validation should be answered with a
200 or a 503.  The handler translates the two exceptions of the gateway client
and nothing else, so the law holds exactly in the runs in which no other
exception leaves it.  There are two kinds.  The credential check raises where
the ttl of the current credential cannot be a float.  A POST ends in a way that
lets one out: an answer that is neither 401, 403 nor 5xx whose body is no JSON,
no dictionary, or carries a `transaction_id` that is no string, or an exception
outside the HTTP library's own.  Every request is answered after two POSTs at
most.
-/

namespace PaymentConnector

open Library Library.Machine

/-! ## 200 or 503 -/

/-- A 200 with a response, or a 503. -/
def Reply.Closed : Reply → Prop
  | .ok _ | .replay _ => True
  | .httpException statusCode _ => statusCode = 503
  | .escaped _ => False

/-- A request with an accepted API key is answered with a 200 or a 503. -/
def FailsClosed (settings : Settings) : Obs → Prop
  | .replied _ request reply => acceptsApiKey settings request.xApiKey = true → reply.Closed
  | _ => True

/-- No exception leaves the handler: neither out of the credential check of a request
that gets to it, nor out of a POST. -/
def Contained (p : Process) : Event → Prop
  | .request _ request _ =>
      acceptsApiKey p.connector.settings request.xApiKey = true → ¬ p.connector.Untimed
  | .answer _ outcome _ _ => outcome.escapes = false
  | .load _ _ => True

/-- The settings never change, and suspended handlers passed validation. -/
structure Validated (settings : Settings) (p : Process) : Prop where
  settings_eq : p.connector.settings = settings
  waiting : ∀ h ∈ p.waiting, acceptsApiKey settings h.request.xApiKey = true

theorem start_validated (settings : Settings) (manager : CredentialManager) :
    Validated settings (Process.start settings manager) where
  settings_eq := rfl
  waiting := fun _ hin => absurd hin List.not_mem_nil

theorem step_validated {settings : Settings} {p p' : Process} {obs : List Obs} {e : Event}
    (h : Validated settings p) (hstep : p.step e = some (p', obs)) : Validated settings p' := by
  cases step_spec hstep with
  | load => exact ⟨h.settings_eq, h.waiting⟩
  | refused => exact ⟨h.settings_eq, h.waiting⟩
  | raised => exact ⟨h.settings_eq, h.waiting⟩
  | replayed => exact ⟨h.settings_eq, h.waiting⟩
  | posting rid request t manager client primary hseen haccepted =>
      have hkey : acceptsApiKey settings request.xApiKey = true := by
        rw [← h.settings_eq]
        exact haccepted
      refine ⟨h.settings_eq, ?_⟩
      intro handler hin
      rcases List.mem_append.mp hin with hold | hnew
      · exact h.waiting handler hold
      · rw [List.mem_singleton.mp hnew]
        exact hkey
  | stored => exact ⟨h.settings_eq, fun h' hin => h.waiting h' (mem_filter_rid hin).1⟩
  | failed => exact ⟨h.settings_eq, fun h' hin => h.waiting h' (mem_filter_rid hin).1⟩
  | fallback handler outcome uuid t client inFlight outputs credential hmem =>
      refine ⟨h.settings_eq, ?_⟩
      intro h' hin
      rcases List.mem_append.mp hin with hold | hnew
      · exact h.waiting h' (mem_filter_rid hold).1
      · rw [List.mem_singleton.mp hnew]
        exact h.waiting handler hmem

/-- From a state whose handlers passed validation, a step answers with
something else exactly when it lets an exception out. -/
private theorem step_failsClosed_iff {settings : Settings} {p p' : Process} {obs : List Obs}
    {e : Event} (h : Validated settings p) (hstep : p.step e = some (p', obs)) :
    (∀ x ∈ obs, FailsClosed settings x) ↔ Contained p e := by
  have hsilent : ∀ o, FailsClosed settings (.output o) := fun _ => trivial
  cases step_spec hstep with
  | load read t manager manager' result outputs =>
      rw [forall_mem_outputs_append hsilent]
      refine ⟨fun _ => trivial, fun _ => ?_⟩
      intro x hx
      rw [List.mem_singleton.mp hx]
      trivial
  | refused rid request t client code detail outputs hseen hclient hcode haccepted =>
      rw [forall_mem_outputs_append hsilent]
      refine ⟨fun _ hkey => (haccepted hkey).2.1, fun _ => ?_⟩
      intro x hx
      rw [List.mem_singleton.mp hx]
      intro hkey
      rw [← h.settings_eq] at hkey
      exact (haccepted hkey).1
  | raised rid request t exc outputs hseen haccepted huntimed =>
      rw [forall_mem_outputs_append hsilent, List.forall_mem_singleton]
      constructor
      · intro hclosed
        exact (hclosed (by rw [← h.settings_eq]; exact haccepted)).elim
      · intro htimed
        exact absurd huntimed (htimed haccepted)
  | replayed rid request t manager cached outputs hseen haccepted hmanager hvalid =>
      rw [forall_mem_outputs_append hsilent]
      refine ⟨fun _ _ => Connector.not_untimed_of_ok hmanager hvalid, fun _ => ?_⟩
      intro x hx
      rw [List.mem_singleton.mp hx]
      exact fun _ => trivial
  | posting rid request t manager client primary hseen haccepted hmanager hvalid =>
      refine ⟨fun _ _ => Connector.not_untimed_of_ok hmanager hvalid, fun _ => ?_⟩
      intro x hx
      rw [List.mem_singleton.mp hx]
      trivial
  | stored handler outcome uuid t client inFlight outputs body response hmem haccepted hbody =>
      have hcontained : outcome.escapes = false := by
        simp [PostOutcome.escapes, hbody, haccepted]
      refine ⟨fun _ => hcontained, fun _ => ?_⟩
      rw [storedObs, forall_mem_outputs_append hsilent, List.forall_mem_cons,
        List.forall_mem_append, List.forall_mem_cons, List.forall_mem_singleton]
      exact ⟨trivial, forall_mem_map (fun _ => trivial) _, trivial, fun _ => trivial⟩
  | failed handler outcome uuid t client inFlight outputs reply hmem haccepted hreply =>
      rw [forall_mem_outputs_append hsilent, List.forall_mem_cons, List.forall_mem_singleton]
      rcases hreply with ⟨hcontained, detail, rfl⟩ | ⟨hescapes, exc, rfl⟩
      · exact ⟨fun _ => hcontained, fun _ => ⟨trivial, fun _ => rfl⟩⟩
      · constructor
        · intro hclosed
          exact (hclosed.2 (h.waiting handler hmem)).elim
        · intro hcontained
          have : outcome.escapes = false := hcontained
          rw [hescapes] at this
          cases this
  | fallback handler outcome uuid t client inFlight outputs credential hmem hrejected =>
      have hcontained : outcome.escapes = false := by simp [PostOutcome.escapes, hrejected]
      rw [forall_mem_outputs_append hsilent, List.forall_mem_cons, List.forall_mem_singleton]
      exact ⟨fun _ => hcontained, fun _ => ⟨trivial, trivial⟩⟩

/-- In a run every request with an accepted API key is answered with a 200 or
a 503, exactly when in the run no request with an accepted API key finds a
current credential whose ttl cannot be a float, and no POST ends with an
exception that the client does not translate. -/
theorem failsClosed_iff (settings : Settings) (manager : CredentialManager) (es : List Event)
    (p : Process) (tr : List Obs)
    (hrun : run Process.step (Process.start settings manager) es = some (p, tr)) :
    (∀ x ∈ tr, FailsClosed settings x) ↔
      Along Process.step Contained (Process.start settings manager) es :=
  trace_iff_along (I := fun p _ => Validated settings p)
    (fun _ _ _ _ _ h hs _ => step_validated h hs)
    (fun _ _ _ _ _ h hs => step_failsClosed_iff h hs) (start_validated settings manager) hrun

instance : ∀ reply : Reply, Decidable reply.Closed
  | .ok _ | .replay _ => inferInstanceAs (Decidable True)
  | .httpException statusCode _ => inferInstanceAs (Decidable (statusCode = 503))
  | .escaped _ => inferInstanceAs (Decidable False)

instance (settings : Settings) : ∀ x, Decidable (FailsClosed settings x)
  | .replied _ request reply =>
      inferInstanceAs (Decidable (acceptsApiKey settings request.xApiKey = true → reply.Closed))
  | .output _ | .loaded _ | .posted _ _ _ | .answered _ _ _ | .stored _ _ _ | .evicted _ =>
      inferInstanceAs (Decidable True)

theorem failsClosed_iff_sequential :
    ∃ p tr, run Process.step sampleProcess sequentialRun = some (p, tr) ∧
      (∀ x ∈ tr, FailsClosed sampleSettings x) ∧
        Along Process.step Contained sampleProcess sequentialRun := by
  have hrun : ∃ p tr, run Process.step sampleProcess sequentialRun = some (p, tr) ∧
      ∀ x ∈ tr, FailsClosed sampleSettings x := exists_run (by decide +kernel)
  obtain ⟨p, tr, hrun, hcloses⟩ := hrun
  exact ⟨p, tr, hrun, hcloses,
    (failsClosed_iff sampleSettings sampleManager sequentialRun p tr hrun).mp hcloses⟩

/-- A 200 answer with the JSON body `null`. -/
def nullBodyRun : List Event :=
  [.request 1 sampleRequest (.at 1), .answer 1 (.response 200 (.ok .null)) "uuid-1" (.at 2)]

/-- `dict(None)` raises a `TypeError` that nothing translates. -/
theorem not_failsClosed_nullBody :
    ∃ p tr, run Process.step sampleProcess nullBodyRun = some (p, tr) ∧
      ¬ ∀ x ∈ tr, FailsClosed sampleSettings x :=
  exists_run (by decide +kernel)

/-! ## Every request is answered -/

/-- How many POSTs a suspended call can still await, the current one included. -/
def Pending.posts (p : Pending) : Nat :=
  match p.stage with
  | .primary (some _) => 2
  | _ => 1

/-- The process has a gateway client. -/
def Process.Connected (p : Process) : Prop := p.connector.gatewayClient.isSome = true

theorem step_connected {p p' : Process} {obs : List Obs} {e : Event} (h : p.Connected)
    (hstep : p.step e = some (p', obs)) : p'.Connected := by
  cases step_spec hstep with
  | load => exact h
  | refused rid request t client code detail outputs hseen hclient =>
      show client.isSome = true
      rw [hclient]
      exact h
  | raised => exact h
  | replayed => exact h
  | posting => rfl
  | stored => rfl
  | failed => rfl
  | fallback => rfl

/-- Whatever the completion of its POST, a suspended handler goes on, and it
either answers its request or suspends with one POST less ahead of it. -/
theorem answer_progress {p : Process} (hp : p.WellNamed) (hconnected : p.Connected)
    {h : Handler} (hmem : h ∈ p.waiting) (outcome : PostOutcome) (uuid : String)
    (t : AnswerReadings) :
    ∃ p' obs, p.step (.answer h.rid outcome uuid t) = some (p', obs) ∧
      ((∃ reply, .replied h.rid h.request reply ∈ obs) ∨
        ∃ h' ∈ p'.waiting, h'.rid = h.rid ∧ h'.request = h.request ∧
          h'.pending.posts < h.pending.posts) := by
  have henabled : (p.step (.answer h.rid outcome uuid t)).isSome = true := by
    obtain ⟨client, hclient⟩ := Option.isSome_iff_exists.mp hconnected
    have hfind : (p.waiting.find? (fun h' => h'.rid = h.rid)).isSome = true := by
      rw [List.find?_isSome]
      exact ⟨h, hmem, by simp⟩
    obtain ⟨h', hfound⟩ := Option.isSome_iff_exists.mp hfind
    simp [Process.step, hclient, hfound]
  obtain ⟨⟨p', obs⟩, hstep⟩ := Option.isSome_iff_exists.mp henabled
  refine ⟨p', obs, hstep, ?_⟩
  have hspec := step_spec hstep
  generalize hrid : h.rid = rid at hspec
  cases hspec with
  | stored handler outcome uuid t client inFlight outputs body response hmem' =>
      have heq : h = handler := hp.eq_of_rid hmem hmem' hrid
      rw [heq]
      exact Or.inl ⟨.ok response, by simp [storedObs]⟩
  | failed handler outcome uuid t client inFlight outputs reply hmem' =>
      have heq : h = handler := hp.eq_of_rid hmem hmem' hrid
      rw [heq]
      exact Or.inl ⟨reply, by simp⟩
  | fallback handler outcome uuid t client inFlight outputs credential hmem' hrejected hstage =>
      have heq : h = handler := hp.eq_of_rid hmem hmem' hrid
      rw [heq]
      refine Or.inr ⟨⟨handler.rid, handler.request,
        ⟨credential, handler.pending.payload, .fallback, t.send⟩⟩, ?_, rfl, rfl, ?_⟩
      · exact List.mem_append_right _ (List.mem_singleton.mpr rfl)
      · show 1 < handler.pending.posts
        simp [Pending.posts, hstage]

/-- A suspended handler has two POSTs at most ahead of it. -/
theorem Pending.posts_le_two (p : Pending) : p.posts ≤ 2 := by
  unfold Pending.posts
  split <;> omega

end PaymentConnector
