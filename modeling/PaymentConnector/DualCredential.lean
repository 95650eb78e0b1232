import PaymentConnector.BreakerDiscipline
import PaymentConnector.Process

/-!
# One call with two credentials

A whole call of `authorize_payment`, from the first POST to its end, against a gateway
that rejects the keys it does not know and otherwise answers as gateways do.  Other
calls of the same client run while a POST is awaited and may leave the client in any
state.

## Main results

* `PostOutcome.Ordinary.cases` — the three ways in which a POST ends.
* `CallWorld.dualCredential` — what the call sends, how it ends, and what it accounts for.
-/

namespace PaymentConnector

open GatewayClient

/-! ## Ordinary answers -/

/-- The body of an answer that is neither 401, 403 nor 5xx. -/
def PostOutcome.body? : PostOutcome → Option PyDict
  | .response statusCode (.ok (.obj fields)) =>
      if statusCode = 401 ∨ statusCode = 403 ∨ 500 ≤ statusCode then none
      else some (objDict fields)
  | _ => none

/-- A rejection, a 5xx, another answer with a JSON object for its body, a timeout or
a transport error. -/
def PostOutcome.Ordinary : PostOutcome → Prop
  | .response statusCode json =>
      statusCode = 401 ∨ statusCode = 403 ∨ 500 ≤ statusCode ∨ ∃ fields, json = .ok (.obj fields)
  | .timeout _ | .httpError _ => True
  | .raised _ => False

/-- How a POST ends, with what the breaker is told of it. -/
inductive PostOutcome.Ends (outcome : PostOutcome) (t : AnswerReadings) : Prop
  | rejected (hrejects : outcome.rejects = true) (hattempt : outcome.attempt = .rejected)
      (hbody : outcome.body? = none) (hrecorded : outcome.recorded? t = none)
  | returned (body : PyDict) (hrejects : outcome.rejects = false)
      (hattempt : outcome.attempt = .returned body) (hbody : outcome.body? = some body)
      (hrecorded : outcome.recorded? t = some .success)
  | unavailable (text : String) (hrejects : outcome.rejects = false)
      (hattempt : outcome.attempt = .unavailable text) (hbody : outcome.body? = none)
      (hrecorded : outcome.recorded? t = some (.failure t.failed))

theorem PostOutcome.Ordinary.ends {outcome : PostOutcome} (h : outcome.Ordinary)
    (t : AnswerReadings) : outcome.Ends t := by
  cases outcome with
  | timeout error => exact .unavailable _ rfl rfl rfl rfl
  | httpError error => exact .unavailable _ rfl rfl rfl rfl
  | raised exc => exact h.elim
  | response statusCode json =>
      by_cases hrejected : statusCode = 401 ∨ statusCode = 403
      · have hrejects : (PostOutcome.response statusCode json).rejects = true := by
          simpa [PostOutcome.rejects] using hrejected
        have hattempt := (PostOutcome.attempt_eq_rejected_iff _).mpr hrejects
        refine .rejected hrejects hattempt ?_ (PostOutcome.recorded?_of_rejected t hattempt)
        unfold PostOutcome.body?
        split
        · rename_i heq
          cases heq
          exact if_pos (hrejected.elim Or.inl (fun h => Or.inr (Or.inl h)))
        · rfl
      · have hrejects : (PostOutcome.response statusCode json).rejects = false := by
          simpa [PostOutcome.rejects] using hrejected
        by_cases hserver : 500 ≤ statusCode
        · refine .unavailable s!"Gateway returned {statusCode}" hrejects ?_ ?_ ?_
          · unfold PostOutcome.attempt
            dsimp only
            rw [if_neg hrejected, if_pos hserver]
          · unfold PostOutcome.body?
            split
            · rename_i heq
              cases heq
              exact if_pos (Or.inr (Or.inr hserver))
            · rfl
          · rw [PostOutcome.recorded?, if_neg hrejected, if_pos hserver]
        · have hobject : ∃ fields, json = .ok (.obj fields) := by
            rcases h with hcode | hcode | hcode | hobject
            · exact absurd (Or.inl hcode) hrejected
            · exact absurd (Or.inr hcode) hrejected
            · exact absurd hcode hserver
            · exact hobject
          obtain ⟨fields, rfl⟩ := hobject
          refine .returned (objDict fields) hrejects ?_ ?_ ?_
          · rw [PostOutcome.attempt, if_neg hrejected, if_neg hserver]
            rfl
          · have hother : ¬ (statusCode = 401 ∨ statusCode = 403 ∨ 500 ≤ statusCode) := by
              omega
            rw [PostOutcome.body?, if_neg hother]
          · rw [PostOutcome.recorded?, if_neg hrejected, if_neg hserver]

/-! ## What a POST is accounted for -/

/-- Every POST is counted once and timed once. -/
theorem tryAuthorize_accounts (g : GatewayClient) (credential : Credential) (startTime : Rat)
    {outcome : PostOutcome} (h : outcome.Ordinary) (t : AnswerReadings) :
    (∃ label, (g.tryAuthorize credential startTime outcome t).1.gatewayRequestsTotal =
        g.gatewayRequestsTotal ++ [label]) ∧
      (g.tryAuthorize credential startTime outcome t).1.gatewayRequestDurationSeconds =
        g.gatewayRequestDurationSeconds ++ [t.done - startTime] := by
  cases outcome with
  | timeout error => exact ⟨⟨_, rfl⟩, rfl⟩
  | httpError error => exact ⟨⟨_, rfl⟩, rfl⟩
  | raised exc => exact h.elim
  | response statusCode json =>
      simp only [tryAuthorize]
      split
      · exact ⟨⟨_, rfl⟩, rfl⟩
      · split
        · exact ⟨⟨_, rfl⟩, rfl⟩
        · cases json with
          | error exc => exact ⟨⟨_, rfl⟩, rfl⟩
          | ok value =>
              dsimp only
              split
              · exact ⟨⟨_, rfl⟩, rfl⟩
              · exact ⟨⟨_, rfl⟩, rfl⟩

/-- What comes after the POST counts no further requests. -/
theorem resumeAuthorize_accounts (g : GatewayClient) (p : Pending) {outcome : PostOutcome}
    (h : outcome.Ordinary) (t : AnswerReadings) :
    (∃ label, (g.resumeAuthorize p outcome t).1.gatewayRequestsTotal =
        g.gatewayRequestsTotal ++ [label]) ∧
      (g.resumeAuthorize p outcome t).1.gatewayRequestDurationSeconds =
        g.gatewayRequestDurationSeconds ++ [t.done - p.startTime] := by
  obtain ⟨failures, hclient⟩ := g.resumeAuthorize_client p outcome t
  rw [hclient]
  exact tryAuthorize_accounts g p.credential p.startTime h t

/-- The start of a call counts none. -/
theorem beginAuthorize_accounts (g : GatewayClient) (m : CredentialManager)
    (payload : PaymentRequest) (t : StartReadings) :
    (g.beginAuthorize m payload t).1.gatewayRequestsTotal = g.gatewayRequestsTotal ∧
      (g.beginAuthorize m payload t).1.gatewayRequestDurationSeconds =
        g.gatewayRequestDurationSeconds := by
  simp only [beginAuthorize]
  split
  · exact ⟨rfl, rfl⟩
  · split
    · exact ⟨rfl, rfl⟩
    · exact ⟨rfl, rfl⟩

/-! ## A whole call -/

/-- The gateway during a call, what other calls make of the client while a POST is
awaited, and the clock. -/
structure CallWorld where
  known : Json → Prop
  answer : Nat → Credential → PaymentRequest → PostOutcome
  meanwhile : Nat → GatewayClient → GatewayClient
  readings : Nat → AnswerReadings
  rejects_iff : ∀ n c payment, (answer n c payment).rejects = true ↔ ¬ known c.apiKey
  ordinary : ∀ n c payment, (answer n c payment).Ordinary

/-- A POST: what is sent and what comes back, and the client when it comes back and
after the code that takes it. -/
structure Exchange where
  credential : Credential
  payload : PaymentRequest
  outcome : PostOutcome
  readings : AnswerReadings
  before : GatewayClient
  after : GatewayClient

/-- A call: the client at its first POST, its POSTs and its end. -/
structure Authorization where
  started : GatewayClient
  exchanges : List Exchange
  result : Progress

namespace CallWorld

/-- The `n`-th POST of a call. -/
def exchange (w : CallWorld) (n : Nat) (g : GatewayClient) (p : Pending) : Exchange :=
  let before := w.meanwhile n g
  let outcome := w.answer n p.credential p.payload
  { credential := p.credential
    payload := p.payload
    outcome := outcome
    readings := w.readings n
    before := before
    after := (before.resumeAuthorize p outcome (w.readings n)).1 }

/-- The POSTs of a call from the `n`-th on, at most the given number of them. -/
def exchanges (w : CallWorld) : Nat → Nat → GatewayClient → Pending → List Exchange × Progress
  | 0, _, _, p => ([], .posting p)
  | posts + 1, n, g, p =>
      let x := w.exchange n g p
      match (x.before.resumeAuthorize p x.outcome x.readings).2.1 with
      | .posting p' =>
          let (xs, result) := exchanges w posts (n + 1) x.after p'
          (x :: xs, result)
      | result => ([x], result)

/-- `authorize_payment`. -/
def authorizePayment (w : CallWorld) (g : GatewayClient) (m : CredentialManager)
    (payment : PaymentRequest) (t : StartReadings) : Authorization :=
  match g.beginAuthorize m payment t with
  | (g, .error error) => ⟨g, [], .failed error⟩
  | (g, .ok p) =>
      let (xs, result) := w.exchanges 2 1 g p
      ⟨g, xs, result⟩

end CallWorld

/-- How much longer a call makes one of the client's lists, what other calls add in the
meantime left out. -/
def Authorization.growth (a : Authorization) {γ : Type} (field : GatewayClient → List γ)
    (g : GatewayClient) : Int :=
  ((field a.started).length - (field g).length) +
    (a.exchanges.map fun x => ((field x.after).length : Int) - (field x.before).length).sum

/-- What the breaker is told in a call. -/
def Authorization.recorded (a : Authorization) : List Recorded :=
  a.exchanges.filterMap fun x => x.outcome.recorded? x.readings

/-- The law of a call with a primary credential and maybe a fallback. -/
structure DualCredential (known : Json → Prop) (g : GatewayClient) (t : StartReadings)
    (primary : Credential) (fallback : Option Credential) (payment : PaymentRequest)
    (a : Authorization) : Prop where
  /-- One POST with the primary, and a second one with the fallback and the same payload
  exactly when the first is rejected and the fallback is another credential. -/
  posts : ∃ first rest, a.exchanges = first :: rest ∧
    first.credential = primary ∧ first.payload = payment ∧
    ((first.outcome.rejects = true ∧ ∃ c, fallback = some c ∧ c.oid ≠ primary.oid ∧
        ∃ second, rest = [second] ∧ second.credential = c ∧ second.payload = payment) ∨
      (¬ (first.outcome.rejects = true ∧ ∃ c, fallback = some c ∧ c.oid ≠ primary.oid) ∧
        rest = []))
  /-- `GatewayAuthError` when the gateway knows none of the keys tried. -/
  auth : (∃ text, a.result = .failed (.auth text)) ↔
    ∀ x ∈ a.exchanges, ¬ known x.credential.apiKey
  /-- The gateway's body when the last POST got one. -/
  returned : ∀ body, a.result = .returned body ↔
    ∃ x, a.exchanges.getLast? = some x ∧ x.outcome.body? = some body
  /-- `GatewayUnavailableError` otherwise. -/
  unavailable : (∃ text, a.result = .failed (.unavailable text)) ↔
    ∃ x, a.exchanges.getLast? = some x ∧ x.outcome.rejects = false ∧ x.outcome.body? = none
  /-- The breaker is told one thing, by the last POST, or nothing if that is rejected. -/
  told : ∃ x, a.exchanges.getLast? = some x ∧
    a.recorded = (if x.outcome.rejects = true then []
      else if x.outcome.body?.isSome = true then [.success]
      else [.failure x.readings.failed])
  /-- It hears nothing else. -/
  breaker : a.started.circuitBreaker = g.circuitBreaker.afterStart t ∧
    ∀ x ∈ a.exchanges, x.after.circuitBreaker =
      x.before.circuitBreaker.afterAnswer x.outcome x.readings
  counted : a.growth gatewayRequestsTotal g = a.exchanges.length
  timed : a.growth gatewayRequestDurationSeconds g = a.exchanges.length

/-! ## The law holds -/

/-- The end of a call after its last POST. -/
inductive Exchange.Closes (x : Exchange) : Progress → Prop
  | rejected (text : String) (hrejects : x.outcome.rejects = true)
      (hbody : x.outcome.body? = none) (hrecorded : x.outcome.recorded? x.readings = none) :
      Closes x (.failed (.auth text))
  | returned (body : PyDict) (hrejects : x.outcome.rejects = false)
      (hbody : x.outcome.body? = some body)
      (hrecorded : x.outcome.recorded? x.readings = some .success) : Closes x (.returned body)
  | unavailable (text : String) (hrejects : x.outcome.rejects = false)
      (hbody : x.outcome.body? = none)
      (hrecorded : x.outcome.recorded? x.readings = some (.failure x.readings.failed)) :
      Closes x (.failed (.unavailable text))

namespace CallWorld

variable {w : CallWorld} {n : Nat} {g : GatewayClient} {p : Pending}

/-- A POST after which nothing is left to try ends the call. -/
private theorem exchange_closes
    (hlast : (w.exchange n g p).outcome.rejects = true → p.retry? = none) :
    (w.exchange n g p).Closes
      (p.progress (w.exchange n g p).outcome (w.readings n)) := by
  have hends : (w.exchange n g p).outcome.Ends (w.readings n) :=
    (w.ordinary n p.credential p.payload).ends (w.readings n)
  cases hends with
  | rejected hrejects hattempt hbody hrecorded =>
      rw [p.progress_rejected _ hattempt, hlast hrejects]
      exact .rejected _ hrejects hbody hrecorded
  | returned body hrejects hattempt hbody hrecorded =>
      rw [Pending.progress, hattempt]
      exact .returned body hrejects hbody hrecorded
  | unavailable text hrejects hattempt hbody hrecorded =>
      rw [Pending.progress, hattempt]
      exact .unavailable text hrejects hbody hrecorded

/-- The last POST of a call. -/
private theorem exchanges_last (posts : Nat)
    (hlast : (w.exchange n g p).outcome.rejects = true → p.retry? = none) :
    ∃ result, w.exchanges (posts + 1) n g p = ([w.exchange n g p], result) ∧
      (w.exchange n g p).Closes result := by
  have hcloses := exchange_closes hlast
  refine ⟨_, ?_, hcloses⟩
  have hprogress : ((w.exchange n g p).before.resumeAuthorize p
      (w.exchange n g p).outcome (w.exchange n g p).readings).2.1 =
        p.progress (w.exchange n g p).outcome (w.readings n) :=
    resumeAuthorize_progress _ p _ _
  simp only [exchanges, hprogress]
  generalize p.progress (w.exchange n g p).outcome (w.readings n) = result at hcloses ⊢
  cases hcloses with
  | rejected => rfl
  | returned => rfl
  | unavailable => rfl

/-- A rejected POST with a fallback left is followed by another one. -/
private theorem exchanges_retry (posts : Nat) {c : Credential}
    (hrejects : (w.exchange n g p).outcome.rejects = true)
    (hretry : p.retry? = some c) :
    w.exchanges (posts + 1) n g p =
      (w.exchange n g p ::
          (w.exchanges posts (n + 1) (w.exchange n g p).after
            ⟨c, p.payload, .fallback, (w.readings n).send⟩).1,
        (w.exchanges posts (n + 1) (w.exchange n g p).after
          ⟨c, p.payload, .fallback, (w.readings n).send⟩).2) := by
  have hprogress : ((w.exchange n g p).before.resumeAuthorize p
      (w.exchange n g p).outcome (w.exchange n g p).readings).2.1 =
        .posting ⟨c, p.payload, .fallback, (w.readings n).send⟩ := by
    rw [resumeAuthorize_progress, p.progress_rejected _
      ((PostOutcome.attempt_eq_rejected_iff _).mpr hrejects), hretry]
    rfl
  simp only [exchanges, hprogress]

/-- One POST makes both lists of the client one longer. -/
private theorem exchange_grows (w : CallWorld) (n : Nat) (g : GatewayClient)
    (p : Pending) :
    ((w.exchange n g p).after.gatewayRequestsTotal.length : Int) -
        (w.exchange n g p).before.gatewayRequestsTotal.length = 1 ∧
      ((w.exchange n g p).after.gatewayRequestDurationSeconds.length : Int) -
        (w.exchange n g p).before.gatewayRequestDurationSeconds.length = 1 := by
  obtain ⟨⟨label, hcounted⟩, htimed⟩ := resumeAuthorize_accounts (w.meanwhile n g) p
    (w.ordinary n p.credential p.payload) (w.readings n)
  refine ⟨?_, ?_⟩
  · show (((w.meanwhile n g).resumeAuthorize p _ _).1.gatewayRequestsTotal.length : Int) -
      (w.meanwhile n g).gatewayRequestsTotal.length = 1
    rw [hcounted, List.length_append, List.length_singleton]
    omega
  · show (((w.meanwhile n g).resumeAuthorize p _ _).1.gatewayRequestDurationSeconds.length : Int) -
      (w.meanwhile n g).gatewayRequestDurationSeconds.length = 1
    rw [htimed, List.length_append, List.length_singleton]
    omega

/-- How the gateway takes the key of a POST. -/
private theorem exchange_rejects_iff (w : CallWorld) (n : Nat) (g : GatewayClient)
    (p : Pending) :
    (w.exchange n g p).outcome.rejects = true ↔ ¬ w.known p.credential.apiKey :=
  w.rejects_iff n p.credential p.payload

private theorem exchange_breaker (w : CallWorld) (n : Nat) (g : GatewayClient)
    (p : Pending) :
    (w.exchange n g p).after.circuitBreaker =
      (w.exchange n g p).before.circuitBreaker.afterAnswer
        (w.exchange n g p).outcome (w.exchange n g p).readings :=
  resumeAuthorize_circuitBreaker _ p _ _

end CallWorld

section Law

variable {known : Json → Prop} {a : Authorization} {xs : List Exchange} {x : Exchange}

/-- A rejected POST tells the breaker nothing. -/
private theorem recorded_of_rejected (hrejected : ∀ y ∈ xs, y.outcome.rejects = true) :
    xs.filterMap (fun y => y.outcome.recorded? y.readings) = [] := by
  rw [List.filterMap_eq_nil_iff]
  intro y hin
  exact PostOutcome.recorded?_of_rejected y.readings
    ((PostOutcome.attempt_eq_rejected_iff _).mpr (hrejected y hin))

private theorem auth_iff (hexchanges : a.exchanges = xs ++ [x])
    (hrejected : ∀ y ∈ xs, y.outcome.rejects = true)
    (hknown : ∀ y ∈ xs ++ [x], y.outcome.rejects = true ↔ ¬ known y.credential.apiKey)
    (hcloses : x.Closes a.result) :
    (∃ text, a.result = .failed (.auth text)) ↔
      ∀ y ∈ a.exchanges, ¬ known y.credential.apiKey := by
  have hlast : x.outcome.rejects = true ↔ ∀ y ∈ a.exchanges, ¬ known y.credential.apiKey := by
    rw [hexchanges]
    constructor
    · intro hrejects y hin
      apply (hknown y hin).mp
      rcases List.mem_append.mp hin with hbefore | hlast
      · exact hrejected y hbefore
      · rw [List.mem_singleton.mp hlast]
        exact hrejects
    · intro hall
      have hin : x ∈ xs ++ [x] := List.mem_append_right _ (List.mem_singleton_self _)
      exact (hknown x hin).mpr (hall x hin)
  rw [← hlast]
  generalize a.result = result at hcloses
  cases hcloses with
  | rejected text hrejects => exact iff_of_true ⟨text, rfl⟩ hrejects
  | returned body hrejects =>
      rw [hrejects]
      exact iff_of_false (fun h => by obtain ⟨_, h⟩ := h; cases h) (by decide)
  | unavailable text hrejects =>
      rw [hrejects]
      exact iff_of_false (fun h => by obtain ⟨_, h⟩ := h; cases h) (by decide)

private theorem returned_iff (hexchanges : a.exchanges = xs ++ [x])
    (hcloses : x.Closes a.result) (body : PyDict) :
    a.result = .returned body ↔
      ∃ y, a.exchanges.getLast? = some y ∧ y.outcome.body? = some body := by
  rw [hexchanges, List.getLast?_concat]
  simp only [Option.some.injEq, exists_eq_left']
  generalize a.result = result at hcloses
  cases hcloses with
  | rejected text hrejects hbody =>
      rw [hbody]
      exact iff_of_false (fun h => by cases h) (fun h => by cases h)
  | returned body' hrejects hbody =>
      rw [hbody]
      exact ⟨fun h => congrArg some (Progress.returned.inj h),
        fun h => congrArg Progress.returned (Option.some.inj h)⟩
  | unavailable text hrejects hbody =>
      rw [hbody]
      exact iff_of_false (fun h => by cases h) (fun h => by cases h)

private theorem unavailable_iff (hexchanges : a.exchanges = xs ++ [x])
    (hcloses : x.Closes a.result) :
    (∃ text, a.result = .failed (.unavailable text)) ↔
      ∃ y, a.exchanges.getLast? = some y ∧ y.outcome.rejects = false ∧
        y.outcome.body? = none := by
  rw [hexchanges, List.getLast?_concat]
  simp only [Option.some.injEq, exists_eq_left']
  generalize a.result = result at hcloses
  cases hcloses with
  | rejected text hrejects =>
      rw [hrejects]
      exact iff_of_false (fun h => by obtain ⟨_, h⟩ := h; cases h) (fun h => by cases h.1)
  | returned body hrejects hbody =>
      rw [hbody]
      exact iff_of_false (fun h => by obtain ⟨_, h⟩ := h; cases h) (fun h => by cases h.2)
  | unavailable text hrejects hbody => exact iff_of_true ⟨text, rfl⟩ ⟨hrejects, hbody⟩

private theorem recorded_eq (hexchanges : a.exchanges = xs ++ [x])
    (hrejected : ∀ y ∈ xs, y.outcome.rejects = true) (hcloses : x.Closes a.result) :
    ∃ y, a.exchanges.getLast? = some y ∧
      a.recorded = (if y.outcome.rejects = true then []
        else if y.outcome.body?.isSome = true then [.success]
        else [.failure y.readings.failed]) := by
  refine ⟨x, by rw [hexchanges, List.getLast?_concat], ?_⟩
  rw [Authorization.recorded, hexchanges, List.filterMap_append, recorded_of_rejected hrejected,
    List.nil_append]
  generalize a.result = result at hcloses
  cases hcloses with
  | rejected text hrejects hbody hrecorded => simp [hrecorded, hrejects]
  | returned body hrejects hbody hrecorded => simp [hrecorded, hrejects, hbody]
  | unavailable text hrejects hbody hrecorded => simp [hrecorded, hrejects, hbody]

end Law

namespace CallWorld

variable {w : CallWorld} {g : GatewayClient} {m : CredentialManager} {payment : PaymentRequest}
  {t : StartReadings} {primary : Credential}

/-- An admitted call with a credential comes to its first POST. -/
private theorem beginAuthorize_of_allowed (hallowed : g.allowed t = true)
    (hprimary : m.getCurrentCredential = some primary) :
    (g.beginAuthorize m payment t).2 =
      .ok ⟨primary, payment, .primary m.getFallbackCredential, t.send⟩ := by
  have hadmitted : ((g.updateCircuitBreakerMetric t.gauge).circuitBreaker.allowsRequest
      t.allow).1 = true := hallowed
  simp only [beginAuthorize, hadmitted, hprimary, Bool.not_true, Bool.false_eq_true, if_false]

/-- The accounts of a call add up POST by POST. -/
private theorem growth_eq {a : Authorization} {γ : Type} {field : GatewayClient → List γ}
    (hstarted : field a.started = field g)
    (hgrows : ∀ y ∈ a.exchanges, ((field y.after).length : Int) - (field y.before).length = 1) :
    a.growth field g = a.exchanges.length := by
  have hones : a.exchanges.map (fun y => ((field y.after).length : Int) - (field y.before).length) =
      a.exchanges.map fun _ => 1 := List.map_congr_left hgrows
  rw [Authorization.growth, hstarted, hones, List.map_const', List.sum_replicate, nsmul_eq_mul]
  omega

/-- What holds of each POST and of the last one makes the law. -/
private theorem dualCredential_of {a : Authorization} {xs : List Exchange} {x : Exchange}
    (hstarted : a.started = (g.beginAuthorize m payment t).1)
    (hexchanges : a.exchanges = xs ++ [x])
    (hof : ∀ y ∈ a.exchanges, ∃ n g' p, y = w.exchange n g' p)
    (hrejected : ∀ y ∈ xs, y.outcome.rejects = true) (hcloses : x.Closes a.result)
    (hposts : ∃ first rest, a.exchanges = first :: rest ∧
      first.credential = primary ∧ first.payload = payment ∧
      ((first.outcome.rejects = true ∧ ∃ c, m.getFallbackCredential = some c ∧
          c.oid ≠ primary.oid ∧
          ∃ second, rest = [second] ∧ second.credential = c ∧ second.payload = payment) ∨
        (¬ (first.outcome.rejects = true ∧ ∃ c, m.getFallbackCredential = some c ∧
          c.oid ≠ primary.oid) ∧ rest = []))) :
    DualCredential w.known g t primary m.getFallbackCredential payment a where
  posts := hposts
  auth := by
    apply auth_iff hexchanges hrejected ?_ hcloses
    intro y hin
    rw [← hexchanges] at hin
    obtain ⟨n, g', p, rfl⟩ := hof y hin
    exact w.exchange_rejects_iff n g' p
  returned := returned_iff hexchanges hcloses
  unavailable := unavailable_iff hexchanges hcloses
  told := recorded_eq hexchanges hrejected hcloses
  breaker := by
    refine ⟨?_, ?_⟩
    · rw [hstarted]
      exact beginAuthorize_circuitBreaker g m payment t
    · intro y hin
      obtain ⟨n, g', p, rfl⟩ := hof y hin
      exact w.exchange_breaker n g' p
  counted := by
    apply growth_eq
    · rw [hstarted]
      exact (beginAuthorize_accounts g m payment t).1
    · intro y hin
      obtain ⟨n, g', p, rfl⟩ := hof y hin
      exact (w.exchange_grows n g' p).1
  timed := by
    apply growth_eq
    · rw [hstarted]
      exact (beginAuthorize_accounts g m payment t).2
    · intro y hin
      obtain ⟨n, g', p, rfl⟩ := hof y hin
      exact (w.exchange_grows n g' p).2

/-- The fallback is tried if there is one and it is another credential. -/
private theorem retry?_primary (primary : Credential) (payment : PaymentRequest)
    (fallback : Option Credential) (send : Rat) (c : Credential) :
    Pending.retry? ⟨primary, payment, .primary fallback, send⟩ = some c ↔
      fallback = some c ∧ c.oid ≠ primary.oid := by
  cases fallback with
  | none => exact iff_of_false (fun h => by cases h) (fun h => by cases h.1)
  | some fallback =>
      by_cases hother : fallback.oid ≠ primary.oid
      · simp only [Pending.retry?, if_pos hother, Option.some.injEq]
        constructor
        · intro heq
          exact ⟨heq, heq ▸ hother⟩
        · exact And.left
      · simp only [Pending.retry?, if_neg hother, Option.some.injEq]
        refine iff_of_false (fun h => by cases h) ?_
        intro hboth
        exact hother (hboth.1 ▸ hboth.2)

end CallWorld

/-- Every call that the breaker admits and that has a credential obeys the law, whatever
its payload, the gateway, the clock and the calls beside it. -/
theorem CallWorld.dualCredential (w : CallWorld) (g : GatewayClient) (m : CredentialManager)
    (payment : PaymentRequest) (t : StartReadings) (primary : Credential)
    (hallowed : g.allowed t = true) (hprimary : m.getCurrentCredential = some primary) :
    DualCredential w.known g t primary m.getFallbackCredential payment
      (w.authorizePayment g m payment t) := by
  have hbegin : (g.beginAuthorize m payment t).2 =
      .ok ⟨primary, payment, .primary m.getFallbackCredential, t.send⟩ :=
    beginAuthorize_of_allowed hallowed hprimary
  generalize hstart : g.beginAuthorize m payment t = started at hbegin
  obtain ⟨g₁, result⟩ := started
  dsimp only at hbegin
  subst hbegin
  have hstarted : g₁ = (g.beginAuthorize m payment t).1 := by rw [hstart]
  have hretry := retry?_primary primary payment m.getFallbackCredential t.send
  generalize hp : (⟨primary, payment, .primary m.getFallbackCredential, t.send⟩ : Pending) = p
    at hstart hretry
  have hcredential : p.credential = primary := by rw [← hp]
  have hpayload : p.payload = payment := by rw [← hp]
  have hcall : w.authorizePayment g m payment t =
      ⟨g₁, (w.exchanges 2 1 g₁ p).1, (w.exchanges 2 1 g₁ p).2⟩ := by
    rw [authorizePayment, hstart]
  rw [hcall]
  by_cases hagain : (w.exchange 1 g₁ p).outcome.rejects = true ∧
      ∃ c, m.getFallbackCredential = some c ∧ c.oid ≠ primary.oid
  · obtain ⟨hrejects, c, hfallback, hother⟩ := hagain
    have hsecond : ∃ result, w.exchanges 1 2 (w.exchange 1 g₁ p).after
        ⟨c, p.payload, .fallback, (w.readings 1).send⟩ =
          ([w.exchange 2 (w.exchange 1 g₁ p).after
            ⟨c, p.payload, .fallback, (w.readings 1).send⟩], result) ∧
        (w.exchange 2 (w.exchange 1 g₁ p).after
          ⟨c, p.payload, .fallback, (w.readings 1).send⟩).Closes result :=
      exchanges_last 0 (fun _ => rfl)
    obtain ⟨result, hlast, hcloses⟩ := hsecond
    rw [exchanges_retry 1 hrejects ((hretry c).mpr ⟨hfallback, hother⟩), hlast]
    have hshape : [w.exchange 1 g₁ p, w.exchange 2
        (w.exchange 1 g₁ p).after ⟨c, p.payload, .fallback, (w.readings 1).send⟩] =
          [w.exchange 1 g₁ p] ++ [w.exchange 2
            (w.exchange 1 g₁ p).after ⟨c, p.payload, .fallback, (w.readings 1).send⟩] := rfl
    apply dualCredential_of hstarted hshape ?_ ?_ hcloses ?_
    · intro y hin
      rcases List.mem_cons.mp hin with heq | hin
      · exact ⟨_, _, _, heq⟩
      · exact ⟨_, _, _, List.mem_singleton.mp hin⟩
    · intro y hin
      rw [List.mem_singleton.mp hin]
      exact hrejects
    · exact ⟨_, _, rfl, hcredential, hpayload,
        Or.inl ⟨hrejects, c, hfallback, hother, _, rfl, rfl, hpayload⟩⟩
  · have hnone : (w.exchange 1 g₁ p).outcome.rejects = true → p.retry? = none := by
      intro hrejects
      cases hnext : p.retry? with
      | none => rfl
      | some c => exact absurd ⟨hrejects, c, (hretry c).mp hnext⟩ hagain
    obtain ⟨result, hlast, hcloses⟩ := exchanges_last 1 hnone
    rw [hlast]
    apply dualCredential_of hstarted (List.nil_append _).symm ?_ ?_ hcloses ?_
    · intro y hin
      exact ⟨_, _, _, List.mem_singleton.mp hin⟩
    · exact fun y hin => absurd hin List.not_mem_nil
    · exact ⟨_, _, rfl, hcredential, hpayload, Or.inr ⟨hagain, rfl⟩⟩

/-- A gateway that knows one key and approves every payment with it. -/
def oneKeyWorld (key : String) : CallWorld where
  known := fun presented => isKey key presented = true
  answer := fun _ c _ =>
    if isKey key c.apiKey = true then answerWith 200 "txn-1" else .response 401 (.ok (.obj []))
  meanwhile := fun _ g => g
  readings := fun n => .at n
  rejects_iff := by
    intro n c payment
    split
    · exact iff_of_false (by decide) (fun hnot => hnot ‹_›)
    · exact iff_of_true rfl ‹_›
  ordinary := by
    intro n c payment
    split
    · exact Or.inr (Or.inr (Or.inr ⟨_, rfl⟩))
    · exact Or.inl rfl

/-- The second version is rejected, and the first one is approved. -/
theorem dualCredential_rescued :
    ∃ primary, rotatedManager.getCurrentCredential = some primary ∧
      DualCredential (oneKeyWorld "key-v1").known (.init "http://gateway") (.at 0) primary
        rotatedManager.getFallbackCredential samplePayment
        ((oneKeyWorld "key-v1").authorizePayment (.init "http://gateway") rotatedManager
          samplePayment (.at 0)) := by
  have hcurrent : rotatedManager.getCurrentCredential.isSome = true := by decide +kernel
  obtain ⟨primary, hprimary⟩ := Option.isSome_iff_exists.mp hcurrent
  have hallowed : (GatewayClient.init "http://gateway").allowed (.at 0) = true := by
    decide +kernel
  exact ⟨primary, hprimary, (oneKeyWorld "key-v1").dualCredential (.init "http://gateway")
    rotatedManager samplePayment (.at 0) primary hallowed hprimary⟩

end PaymentConnector
