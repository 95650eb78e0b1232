import PaymentConnector.Endpoint
import PaymentConnector.Library.Machine

/-!
# One connector process as a machine

The asyncio process interleaves any number of handlers of the authorize
endpoint with the loads of the refresh loop, switching only where a handler
awaits a POST.  A step is therefore one stretch of code without suspension:

* `load` — one `load_credentials` of the refresh loop;
* `request` — a request arrives and its handler runs to its first suspension;
* `answer` — the POST awaited by a handler completes and the handler resumes.

The events carry the schedule, the Vault reads, the gateway's behaviour, the
clock readings and the drawn ids, so every list of events that is enabled is
an execution and every execution is one.
-/

namespace PaymentConnector

open Library

inductive Event
  | load (read : VaultRead) (t : LoadReadings)
  | request (rid : Nat) (request : AuthorizeRequest) (t : StartReadings)
  | answer (rid : Nat) (outcome : PostOutcome) (uuid : String) (t : AnswerReadings)

/-- A handler suspended at a POST. -/
structure Handler where
  rid : Nat
  request : AuthorizeRequest
  pending : Pending

/-- The process: its globals, the suspended handlers and the names already
given to requests. -/
structure Process where
  connector : Connector
  waiting : List Handler
  seen : List Nat

/-- What a step makes visible. -/
inductive Obs
  | output (output : Output)
  | loaded (result : Bool)
  | posted (rid : Nat) (payment : PaymentRequest) (pending : Pending)
  | answered (rid : Nat) (key : String) (outcome : PostOutcome)
  | stored (rid : Nat) (key : String) (response : PaymentResponse)
  | evicted (key : String)
  | replied (rid : Nat) (request : AuthorizeRequest) (reply : Reply)

/-- What the end of a stretch shows: the next POST, or the answer, preceded by
the store when the answer is a fresh 200. -/
def advanceObs (rid : Nat) (request : AuthorizeRequest) : Advance → List Obs
  | .posting pending => [.posted rid request.payment pending]
  | .replied (.ok response) =>
      [.stored rid request.payment.idempotencyKey response, .replied rid request (.ok response)]
  | .replied reply => [.replied rid request reply]

/-- The handler that is left suspended at the end of a stretch, if any. -/
def suspended (rid : Nat) (request : AuthorizeRequest) : Advance → List Handler
  | .posting pending => [⟨rid, request, pending⟩]
  | .replied _ => []

/-- `r.idempotency_key`. -/
def AuthorizeRequest.key (request : AuthorizeRequest) : String :=
  request.payment.idempotencyKey

namespace Process

/-- The process after start-up: a manager, a gateway client, an empty cache. -/
def start (settings : Settings) (manager : CredentialManager) : Process where
  connector :=
    { settings := settings
      credentialManager := some manager
      gatewayClient := some (GatewayClient.init settings.vaultgatewayUrl)
      idempotencyCache := .empty
      inFlight := 0 }
  waiting := []
  seen := []

/-- One stretch of code without suspension. -/
def step (p : Process) : Event → Option (Process × List Obs)
  | .load read t =>
      match p.connector.credentialManager with
      | none => none
      | some manager =>
          let (result, manager, outputs) :=
            manager.loadCredentials p.connector.settings.vaultSecretPath read t
          some
            ({ p with connector := { p.connector with credentialManager := some manager } },
              outputs.map Obs.output ++ [.loaded result])
  | .request rid request t =>
      if rid ∈ p.seen then none
      else
        let (connector, advance, outputs) := p.connector.beginRequest request t
        some
          ({ connector := connector
             waiting := p.waiting ++ suspended rid request advance
             seen := rid :: p.seen },
            outputs.map Obs.output ++ advanceObs rid request advance)
  | .answer rid outcome uuid t =>
      match p.connector.gatewayClient, p.waiting.find? (fun h => h.rid = rid) with
      | some client, some h =>
          let (connector, advance, outputs, evicted) :=
            p.connector.resumeRequest client h.request.payment h.pending outcome uuid t
          some
            ({ connector := connector
               waiting := p.waiting.filter (fun h' => h'.rid ≠ rid) ++
                 suspended rid h.request advance
               seen := p.seen },
              outputs.map Obs.output ++
                .answered rid h.request.key outcome ::
                  (evicted.map Obs.evicted ++ advanceObs rid h.request advance))
      | _, _ => none

end Process

/-! ## What a step can do -/

/-- What a step shows that stores a fresh response and answers with it. -/
def storedObs (h : Handler) (outcome : PostOutcome) (response : PaymentResponse)
    (outputs : List Output) (evicted : List String) : List Obs :=
  outputs.map Obs.output ++ .answered h.rid h.request.key outcome ::
    (evicted.map Obs.evicted ++
      [.stored h.rid h.request.key response, .replied h.rid h.request (.ok response)])

/-- Everything a step can do, with the guard under which it does it. -/
inductive StepSpec (p : Process) : Event → Process → List Obs → Prop
  | load (read : VaultRead) (t : LoadReadings) (manager manager' : CredentialManager)
      (result : Bool) (outputs : List Output)
      (hmanager : p.connector.credentialManager = some manager)
      (hload : manager.loadCredentials p.connector.settings.vaultSecretPath read t =
        (result, manager', outputs)) :
      StepSpec p (.load read t)
        { p with connector := { p.connector with credentialManager := some manager' } }
        (outputs.map Obs.output ++ [.loaded result])
  | refused (rid : Nat) (request : AuthorizeRequest) (t : StartReadings)
      (client : Option GatewayClient) (code : Nat) (detail : String) (outputs : List Output)
      (hseen : ¬ rid ∈ p.seen)
      (hclient : client.isSome = p.connector.gatewayClient.isSome)
      (hcode : code = 401 ∨ code = 403 ∨ code = 503)
      (haccepted : acceptsApiKey p.connector.settings request.xApiKey = true →
        code = 503 ∧ ¬ p.connector.Untimed ∧ ¬ p.connector.Ready t)
      (hmiss : p.connector.LooksUp request t →
        p.connector.idempotencyCache.get? request.key = none) :
      StepSpec p (.request rid request t)
        { p with
          connector := { p.connector with gatewayClient := client }
          seen := rid :: p.seen }
        (outputs.map Obs.output ++ [.replied rid request (.httpException code detail)])
  | raised (rid : Nat) (request : AuthorizeRequest) (t : StartReadings) (exc : PyExc)
      (outputs : List Output)
      (hseen : ¬ rid ∈ p.seen)
      (haccepted : acceptsApiKey p.connector.settings request.xApiKey = true)
      (huntimed : p.connector.Untimed) :
      StepSpec p (.request rid request t) { p with seen := rid :: p.seen }
        (outputs.map Obs.output ++ [.replied rid request (.escaped exc)])
  | replayed (rid : Nat) (request : AuthorizeRequest) (t : StartReadings)
      (manager : CredentialManager) (cached : PaymentResponse) (outputs : List Output)
      (hseen : ¬ rid ∈ p.seen)
      (haccepted : acceptsApiKey p.connector.settings request.xApiKey = true)
      (hmanager : p.connector.credentialManager = some manager)
      (hvalid : manager.hasValidCredentials t.check = .ok true)
      (hcached : p.connector.idempotencyCache.get? request.key = some cached) :
      StepSpec p (.request rid request t)
        { p with
          connector := { p.connector with
            idempotencyCache := p.connector.idempotencyCache.moveToEnd request.key }
          seen := rid :: p.seen }
        (outputs.map Obs.output ++ [.replied rid request (.replay cached)])
  | posting (rid : Nat) (request : AuthorizeRequest) (t : StartReadings)
      (manager : CredentialManager) (client : GatewayClient) (primary : Credential)
      (hseen : ¬ rid ∈ p.seen)
      (haccepted : acceptsApiKey p.connector.settings request.xApiKey = true)
      (hmanager : p.connector.credentialManager = some manager)
      (hvalid : manager.hasValidCredentials t.check = .ok true)
      (hmiss : p.connector.idempotencyCache.get? request.key = none)
      (hready : p.connector.Ready t)
      (hprimary : manager.getCurrentCredential = some primary) :
      StepSpec p (.request rid request t)
        { connector := { p.connector with
            gatewayClient := some client
            inFlight := p.connector.inFlight + 1 }
          waiting := p.waiting ++
            [⟨rid, request,
              ⟨primary, request.payment, .primary manager.getFallbackCredential, t.send⟩⟩]
          seen := rid :: p.seen }
        [.posted rid request.payment
          ⟨primary, request.payment, .primary manager.getFallbackCredential, t.send⟩]
  | stored (h : Handler) (outcome : PostOutcome) (uuid : String) (t : AnswerReadings)
      (client : GatewayClient) (inFlight : Int) (outputs : List Output)
      (body : PyDict) (response : PaymentResponse)
      (hmem : h ∈ p.waiting)
      (haccepted : outcome.accepted = true)
      (hbody : outcome.attempt = .returned body)
      (hbuild : buildResponse h.request.payment body uuid t.stamp = .ok response) :
      StepSpec p (.answer h.rid outcome uuid t)
        { p with
          connector := { p.connector with
            gatewayClient := some client
            idempotencyCache :=
              (storeIdempotency h.request.key response p.connector.idempotencyCache).1
            inFlight := inFlight }
          waiting := p.waiting.filter (fun h' => h'.rid ≠ h.rid) }
        (storedObs h outcome response outputs
          (storeIdempotency h.request.key response p.connector.idempotencyCache).2)
  | failed (h : Handler) (outcome : PostOutcome) (uuid : String) (t : AnswerReadings)
      (client : GatewayClient) (inFlight : Int) (outputs : List Output) (reply : Reply)
      (hmem : h ∈ p.waiting)
      (haccepted : outcome.accepted = false)
      (hreply : (outcome.escapes = false ∧ ∃ detail, reply = .httpException 503 detail) ∨
        (outcome.escapes = true ∧ ∃ exc, reply = .escaped exc))
      (hlast : outcome.attempt = .rejected →
        ∀ credential, h.pending.stage = .primary (some credential) →
          credential.oid = h.pending.credential.oid) :
      StepSpec p (.answer h.rid outcome uuid t)
        { p with
          connector := { p.connector with gatewayClient := some client, inFlight := inFlight }
          waiting := p.waiting.filter (fun h' => h'.rid ≠ h.rid) }
        (outputs.map Obs.output ++
          [.answered h.rid h.request.key outcome, .replied h.rid h.request reply])
  | fallback (h : Handler) (outcome : PostOutcome) (uuid : String) (t : AnswerReadings)
      (client : GatewayClient) (inFlight : Int) (outputs : List Output) (credential : Credential)
      (hmem : h ∈ p.waiting)
      (hrejected : outcome.attempt = .rejected)
      (hstage : h.pending.stage = .primary (some credential))
      (hoid : credential.oid ≠ h.pending.credential.oid) :
      StepSpec p (.answer h.rid outcome uuid t)
        { p with
          connector := { p.connector with gatewayClient := some client, inFlight := inFlight }
          waiting := p.waiting.filter (fun h' => h'.rid ≠ h.rid) ++
            [⟨h.rid, h.request, ⟨credential, h.pending.payload, .fallback, t.send⟩⟩] }
        (outputs.map Obs.output ++
          [.answered h.rid h.request.key outcome,
            .posted h.rid h.request.payment ⟨credential, h.pending.payload, .fallback, t.send⟩])

private theorem step_request_spec {p p' : Process} {rid : Nat} {request : AuthorizeRequest}
    {t : StartReadings} {obs : List Obs}
    (h : p.step (.request rid request t) = some (p', obs)) :
    StepSpec p (.request rid request t) p' obs := by
  simp only [Process.step] at h
  split at h
  · cases h
  · rename_i hseen
    have hspec := beginRequest_spec p.connector request t
    rcases hbegin : p.connector.beginRequest request t with ⟨connector, advance, outputs⟩
    rw [hbegin] at hspec
    simp only [hbegin, Option.some.injEq, Prod.mk.injEq] at h
    obtain ⟨rfl, rfl⟩ := h
    cases hspec with
    | refused client code detail outputs hclient hcode haccepted hmiss =>
        simp only [suspended, List.append_nil]
        exact .refused rid request t client code detail outputs hseen hclient hcode haccepted
          hmiss
    | raised manager exc haccepted hmanager huntimed hraised =>
        simp only [suspended, List.append_nil]
        exact .raised rid request t exc _ hseen haccepted huntimed
    | replayed manager cached haccepted hmanager hvalid hcached =>
        simp only [suspended, List.append_nil]
        exact .replayed rid request t manager cached _ hseen haccepted hmanager hvalid hcached
    | posting manager client client' primary haccepted hmanager hvalid hmiss hclient hallowed
        hprimary =>
        exact .posting rid request t manager client' primary hseen haccepted hmanager hvalid
          hmiss ⟨manager, client, hmanager, hvalid, hclient, hallowed⟩ hprimary

/-- How a handler goes on after a POST. -/
def Handler.advance (h : Handler) (outcome : PostOutcome) (uuid : String) (t : AnswerReadings) :
    Advance :=
  advanceOf h.request.payment uuid t.stamp (h.pending.progress outcome t)

/-- The completion of a POST, up to the gateway client and the counter. -/
theorem step_answer_eq {p p' : Process} {rid : Nat} {outcome : PostOutcome}
    {uuid : String} {t : AnswerReadings} {obs : List Obs}
    (h : p.step (.answer rid outcome uuid t) = some (p', obs)) :
    ∃ handler ∈ p.waiting, handler.rid = rid ∧ ∃ client inFlight, ∃ outputs : List Output,
      p' =
        { connector := { p.connector with
            gatewayClient := some client
            idempotencyCache := (storeAdvance handler.request.key p.connector.idempotencyCache
              (handler.advance outcome uuid t)).1
            inFlight := inFlight }
          waiting := p.waiting.filter (fun h' => h'.rid ≠ rid) ++
            suspended rid handler.request (handler.advance outcome uuid t)
          seen := p.seen } ∧
      obs = outputs.map Obs.output ++ .answered rid handler.request.key outcome ::
        ((storeAdvance handler.request.key p.connector.idempotencyCache
            (handler.advance outcome uuid t)).2.map Obs.evicted ++
          advanceObs rid handler.request (handler.advance outcome uuid t)) := by
  simp only [Process.step] at h
  split at h
  · rename_i client handler hclient hfind
    have hrid : handler.rid = rid := by simpa using List.find?_some hfind
    have hmem : handler ∈ p.waiting := List.mem_of_find?_eq_some hfind
    obtain ⟨client', inFlight, outputs, hresume⟩ :=
      resumeRequest_spec p.connector client handler.request.payment handler.pending outcome uuid t
    simp only [hresume, Option.some.injEq, Prod.mk.injEq] at h
    exact ⟨handler, hmem, hrid, client', inFlight, outputs, h.1.symm, h.2.symm⟩
  · cases h

private theorem step_answer_spec {p p' : Process} {rid : Nat} {outcome : PostOutcome}
    {uuid : String} {t : AnswerReadings} {obs : List Obs}
    (h : p.step (.answer rid outcome uuid t) = some (p', obs)) :
    StepSpec p (.answer rid outcome uuid t) p' obs := by
  obtain ⟨handler, hmem, rfl, client, inFlight, outputs, rfl, rfl⟩ := step_answer_eq h
  have hspec : AdvanceSpec handler.request.payment handler.pending outcome uuid t
      (handler.advance outcome uuid t) :=
    advanceOf_spec handler.request.payment handler.pending outcome uuid t
  generalize handler.advance outcome uuid t = advance at hspec
  cases hspec with
  | stored body response haccepted hbody hbuild =>
      simp only [suspended, List.append_nil]
      exact .stored handler outcome uuid t client inFlight outputs body response hmem haccepted
        hbody hbuild
  | refused detail haccepted hescapes hlast =>
      simp only [suspended, List.append_nil, storeAdvance, List.map_nil, List.nil_append]
      exact .failed handler outcome uuid t client inFlight outputs _ hmem haccepted
        (Or.inl ⟨hescapes, detail, rfl⟩) hlast
  | escaped exc haccepted hescapes hrejected =>
      simp only [suspended, List.append_nil, storeAdvance, List.map_nil, List.nil_append]
      exact .failed handler outcome uuid t client inFlight outputs _ hmem haccepted
        (Or.inr ⟨hescapes, exc, rfl⟩) (fun h => absurd h hrejected)
  | fallback credential hrejected hstage hoid =>
      simp only [suspended, storeAdvance, List.map_nil, List.nil_append]
      exact .fallback handler outcome uuid t client inFlight outputs credential hmem hrejected
        hstage hoid

theorem step_spec {p p' : Process} {e : Event} {obs : List Obs}
    (h : p.step e = some (p', obs)) : StepSpec p e p' obs := by
  cases e with
  | load read t =>
      simp only [Process.step] at h
      cases hmanager : p.connector.credentialManager with
      | none => simp [hmanager] at h
      | some manager =>
          simp only [hmanager, Option.some.injEq, Prod.mk.injEq] at h
          obtain ⟨rfl, rfl⟩ := h
          exact .load read t manager _ _ _ hmanager rfl
  | request rid request t => exact step_request_spec h
  | answer rid outcome uuid t => exact step_answer_spec h

/-! ## Names of requests -/

/-- Suspended handlers have different names, all of them given out. -/
structure Process.WellNamed (p : Process) : Prop where
  distinct : (p.waiting.map Handler.rid).Nodup
  named : ∀ h ∈ p.waiting, h.rid ∈ p.seen

theorem Process.start_wellNamed (settings : Settings) (manager : CredentialManager) :
    (Process.start settings manager).WellNamed :=
  ⟨List.nodup_nil, fun _ h => by cases h⟩

/-- A suspended handler is determined by its name. -/
theorem Process.WellNamed.eq_of_rid {p : Process} (hp : p.WellNamed) {h h' : Handler}
    (hmem : h ∈ p.waiting) (hmem' : h' ∈ p.waiting) (hrid : h.rid = h'.rid) : h = h' :=
  List.inj_on_of_nodup_map hp.distinct hmem hmem' hrid

private theorem nodup_filter_rid {waiting : List Handler}
    (h : (waiting.map Handler.rid).Nodup) (rid : Nat) :
    ((waiting.filter (fun h' => h'.rid ≠ rid)).map Handler.rid).Nodup :=
  h.sublist (List.Sublist.map Handler.rid List.filter_sublist)

private theorem named_filter_rid {waiting : List Handler} {seen : List Nat}
    (h : ∀ h ∈ waiting, h.rid ∈ seen) (rid : Nat) :
    ∀ h ∈ waiting.filter (fun h' => h'.rid ≠ rid), h.rid ∈ seen :=
  fun h' hmem => h h' (List.mem_of_mem_filter hmem)

/-- The handlers that stay suspended while another one goes on. -/
theorem mem_filter_rid {waiting : List Handler} {rid : Nat} {h : Handler}
    (hmem : h ∈ waiting.filter (fun h' => h'.rid ≠ rid)) : h ∈ waiting ∧ h.rid ≠ rid := by
  have hboth := List.mem_filter.mp hmem
  exact ⟨hboth.1, of_decide_eq_true hboth.2⟩

theorem step_wellNamed {p p' : Process} {e : Event} {obs : List Obs} (hp : p.WellNamed)
    (hstep : p.step e = some (p', obs)) : p'.WellNamed := by
  cases step_spec hstep with
  | load => exact ⟨hp.distinct, hp.named⟩
  | refused => exact ⟨hp.distinct, fun h hmem => List.mem_cons_of_mem _ (hp.named h hmem)⟩
  | raised => exact ⟨hp.distinct, fun h hmem => List.mem_cons_of_mem _ (hp.named h hmem)⟩
  | replayed => exact ⟨hp.distinct, fun h hmem => List.mem_cons_of_mem _ (hp.named h hmem)⟩
  | posting rid request t manager client primary hseen =>
      have hfresh : ¬ rid ∈ p.waiting.map Handler.rid := by
        intro hin
        obtain ⟨h, hmem, rfl⟩ := List.mem_map.mp hin
        exact hseen (hp.named h hmem)
      refine ⟨?_, ?_⟩
      · rw [List.map_append, List.map_cons, List.map_nil, ← List.concat_eq_append]
        exact hp.distinct.concat hfresh
      · intro h hmem
        rcases List.mem_append.mp hmem with hold | hnew
        · exact List.mem_cons_of_mem _ (hp.named h hold)
        · rw [List.mem_singleton.mp hnew]
          exact List.mem_cons_self
  | stored h => exact ⟨nodup_filter_rid hp.distinct h.rid, named_filter_rid hp.named h.rid⟩
  | failed h => exact ⟨nodup_filter_rid hp.distinct h.rid, named_filter_rid hp.named h.rid⟩
  | fallback handler outcome uuid t client inFlight outputs credential hmem =>
      refine ⟨?_, ?_⟩
      · rw [List.map_append, List.map_cons, List.map_nil, ← List.concat_eq_append]
        apply (nodup_filter_rid hp.distinct handler.rid).concat
        intro hin
        obtain ⟨h, hmem', hrid⟩ := List.mem_map.mp hin
        have hne := (List.mem_filter.mp hmem').2
        exact of_decide_eq_true hne hrid
      · intro h hmem'
        rcases List.mem_append.mp hmem' with hold | hnew
        · exact named_filter_rid hp.named handler.rid h hold
        · rw [List.mem_singleton.mp hnew]
          exact hp.named handler hmem

/-! ## What a step shows -/

theorem filterMap_map_eq_nil {β γ : Type} {f : Obs → Option β} {c : γ → Obs}
    (h : ∀ a, f (c a) = none) (as : List γ) : (as.map c).filterMap f = [] := by
  induction as with
  | nil => rfl
  | cons a as ih => rw [List.map_cons, List.filterMap_cons_none (h a), ih]

/-- The key that an observation evicts. -/
def Obs.evicted? : Obs → Option String
  | .evicted key => some key
  | _ => none

theorem evicted_mem_iff (key : String) (tr : List Obs) :
    .evicted key ∈ tr ↔ key ∈ tr.filterMap Obs.evicted? := by
  rw [List.mem_filterMap]
  constructor
  · exact fun h => ⟨.evicted key, h, rfl⟩
  · intro h
    obtain ⟨x, hx, hkey⟩ := h
    cases x with
    | evicted key' =>
        have heq : key' = key := Option.some.inj hkey
        rwa [heq] at hx
    | _ => cases hkey

instance (key : String) (tr : List Obs) : Decidable (.evicted key ∈ tr) :=
  decidable_of_iff _ (evicted_mem_iff key tr).symm

/-- The outputs of a step do not count where every output is good. -/
theorem forall_mem_outputs_append {F : Obs → Prop} (h : ∀ o, F (.output o))
    (outputs : List Output) (obs : List Obs) :
    (∀ x ∈ outputs.map Obs.output ++ obs, F x) ↔ ∀ x ∈ obs, F x := by
  constructor
  · exact fun hF x hx => hF x (List.mem_append_right _ hx)
  · intro hF x hx
    rcases List.mem_append.mp hx with hout | hobs
    · obtain ⟨o, -, rfl⟩ := List.mem_map.mp hout
      exact h o
    · exact hF x hobs

theorem forall_mem_map {γ : Type} {F : Obs → Prop} {c : γ → Obs} (h : ∀ a, F (c a))
    (as : List γ) : ∀ x ∈ as.map c, F x := by
  intro x hx
  obtain ⟨a, -, rfl⟩ := List.mem_map.mp hx
  exact h a

/-! ## A sample process

The fixtures of the service's own tests, for the runs on fixed inputs. -/

def sampleRequest : AuthorizeRequest where
  payment := samplePayment
  requestId := "req-1"
  xApiKey := some "default-api-key"

def sampleSettings : Settings := { apiKeys := ["default-api-key"] }

def sampleManager : CredentialManager :=
  (CredentialManager.init.loadCredentials sampleSettings.vaultSecretPath
    (.ok (sampleSecret 1 "key-v1" "secret-v1")) (.at 0)).2.1

def sampleProcess : Process := .start sampleSettings sampleManager

/-- An answer whose body names a transaction. -/
def answerWith (statusCode : Nat) (transactionId : String) : PostOutcome :=
  .response statusCode
    (.ok (.obj [("transaction_id", .str transactionId), ("status", .str "approved")]))

/-- Two requests for one key, and the answer to the first in between. -/
def sequentialRun : List Event :=
  [.request 1 sampleRequest (.at 1), .answer 1 (answerWith 200 "txn-1") "uuid-1" (.at 2),
    .request 2 sampleRequest (.at 3)]

end PaymentConnector
