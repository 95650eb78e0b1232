import PaymentConnector.Noninterference

/-!
# Secrets in the log lines of a payment

The gateway client sends the key and the secret in two headers of its POST.  The HTTP
library raises an error for a header value that it cannot send, and quotes the value in
the error's text; the client logs the text, and the endpoint logs it again.

Which values cannot be sent, and how they are quoted, is up to the library.

## Main results

* `Process.step_httpError` — where the text of an error goes.
* `HeaderRules.logs_eq_iff` — two runs write the same log lines exactly when they fail to
  send the same values.
-/

namespace PaymentConnector

open Library Library.Machine

/-! ## Headers that cannot be sent -/

/-- The HTTP library's rules: the header values that it raises an `httpx.HTTPError` for,
and the error's text, which quotes the value. -/
structure HeaderRules where
  refuses : Json → Bool
  text : Json → String
  quotes : ∀ v w, refuses v = true → refuses w = true → text v = text w → v = w

/-- The kinds of gateway outcome: the headers are sent and the POST completes, or one of
them cannot be sent. -/
inductive PostKind
  | completed (outcome : PostOutcome)
  | headerRefused

inductive PathEvent
  | load (read : VaultRead) (t : LoadReadings)
  | request (rid : Nat) (request : AuthorizeRequest) (t : StartReadings)
  | answer (rid : Nat) (kind : PostKind) (uuid : String) (t : AnswerReadings)

/-- What the process shows, and the header values that could not be sent. -/
inductive PathObs
  | process (obs : Obs)
  | unsent (value : Json)

namespace HeaderRules

variable (rules : HeaderRules)

/-- The first value that cannot be sent, in the order of the headers. -/
def offending? (c : Credential) : Option Json :=
  [c.apiKey, c.apiSecret].find? rules.refuses

/-- What a POST with the credential completes with, and the value it could not send. -/
def outcome? (c : Credential) : PostKind → Option (PostOutcome × List PathObs)
  | .completed outcome => if rules.offending? c = none then some (outcome, []) else none
  | .headerRefused =>
      (rules.offending? c).map (fun value => (.httpError (rules.text value), [.unsent value]))

/-- One stretch of code of the process, with what the HTTP library makes of the headers. -/
def step (p : Process) : PathEvent → Option (Process × List PathObs)
  | .load read t => (p.step (.load read t)).map (fun r => (r.1, r.2.map .process))
  | .request rid request t =>
      (p.step (.request rid request t)).map (fun r => (r.1, r.2.map .process))
  | .answer rid kind uuid t =>
      match p.waiting.find? (fun h => h.rid = rid) with
      | none => none
      | some h =>
          match rules.outcome? h.pending.credential kind with
          | none => none
          | some (outcome, unsent) =>
              (p.step (.answer rid outcome uuid t)).map
                (fun r => (r.1, unsent ++ r.2.map .process))

end HeaderRules

/-- The log lines of `GatewayClient` and of the authorize endpoint. -/
def LogLine.ofPayment : LogLine → Bool
  | .circuitBreakerOpened _ | .gatewayFallbackCredentialAttempt | .gatewayAuthRejected _ _
  | .gatewayTimeout _ | .gatewayHttpError _ | .idempotencyCacheHit _ | .gatewayUnavailable _
  | .gatewayAuthError _ => true
  | _ => false

def Obs.log? : Obs → Option LogLine
  | .output (.log line) => if line.ofPayment then some line else none
  | _ => none

def PathObs.log? : PathObs → Option LogLine
  | .process obs => obs.log?
  | .unsent _ => none

def PathObs.unsent? : PathObs → Option Json
  | .process _ => none
  | .unsent value => some value

/-- The log lines of a trace. -/
def paymentLogs (tr : List PathObs) : List LogLine := tr.filterMap PathObs.log?

/-- The header values that could not be sent. -/
def unsentValues (tr : List PathObs) : List Json := tr.filterMap PathObs.unsent?

/-! ## Where the text of an error goes -/

/-- The log lines in which the text of an `httpx.HTTPError` ends up. -/
def errorLines (text : String) : List Obs :=
  [.output (.log (.gatewayHttpError text)),
    .output (.log (.gatewayUnavailable s!"Gateway error: {text}"))]

/-- After an error of the HTTP library the call ends the same way whatever the text is. -/
theorem GatewayClient.resumeAuthorize_httpError (g : GatewayClient) (p : Pending)
    (t : AnswerReadings) :
    ∃ g' outputs, ∀ text, g.resumeAuthorize p (.httpError text) t =
      (g', .failed (.unavailable s!"Gateway error: {text}"),
        outputs ++ [.log (.gatewayHttpError text)]) := by
  rcases hfail : (g.observe (t.done - p.startTime)).failRequest "error" t with ⟨g', outputs⟩
  refine ⟨g', outputs, fun text => ?_⟩
  simp only [resumeAuthorize, tryAuthorize, hfail]

/-- The same for the process, and the text is in two of its log lines. -/
theorem Process.step_httpError {p : Process} {rid : Nat} {uuid : String} {t : AnswerReadings}
    {text : String} {p' : Process} {obs : List Obs}
    (h : p.step (.answer rid (.httpError text) uuid t) = some (p', obs)) :
    ∃ (before : List Obs) (key : String) (request : AuthorizeRequest) (reply : Reply),
      ∀ other, p.step (.answer rid (.httpError other) uuid t) =
        some (p', before ++ errorLines other ++
          [.answered rid key (.httpError other), .replied rid request reply]) := by
  simp only [Process.step] at h ⊢
  cases hclient : p.connector.gatewayClient with
  | none => simp [hclient] at h
  | some client =>
      cases hfind : p.waiting.find? (fun h => h.rid = rid) with
      | none => simp [hclient, hfind] at h
      | some handler =>
          obtain ⟨client', outputs, hresume⟩ :=
            client.resumeAuthorize_httpError handler.pending t
          have hrequest : ∀ other, p.connector.resumeRequest client handler.request.payment
              handler.pending (.httpError other) uuid t =
                ({ p.connector with gatewayClient := some client' }.leave,
                  .replied (.httpException 503 "Service unavailable: gateway unreachable"),
                  outputs ++ [.log (.gatewayHttpError other)] ++
                    [.log (.gatewayUnavailable s!"Gateway error: {other}")], []) := by
            intro other
            simp only [Connector.resumeRequest, hresume, Connector.finishRequest,
              Connector.gatewayFailed]
          simp only [hclient, hfind, hrequest, Option.some.injEq, Prod.mk.injEq] at h ⊢
          obtain ⟨rfl, -⟩ := h
          refine ⟨outputs.map Obs.output, handler.request.key, handler.request,
            .httpException 503 "Service unavailable: gateway unreachable",
            fun other => ⟨rfl, ?_⟩⟩
          simp [errorLines, advanceObs]

/-! ## Two runs -/

def PathEvent.redact : PathEvent → PathEvent
  | .load read t => .load (read.map SecretData.redact) t
  | e => e

/-- Two processes that differ at most in keys and secrets. -/
def SameButCredentials (p q : Process) : Prop := p.redact = q.redact

/-- Two traces with as many lines and as many unsent values, and the same lines exactly
when the unsent values are the same. -/
structure LeaksAlike (tr tr' : List PathObs) : Prop where
  logs_length : (paymentLogs tr).length = (paymentLogs tr').length
  unsent_length : (unsentValues tr).length = (unsentValues tr').length
  logs_eq_iff : paymentLogs tr = paymentLogs tr' ↔ unsentValues tr = unsentValues tr'

theorem paymentLogs_append (o tr : List PathObs) :
    paymentLogs (o ++ tr) = paymentLogs o ++ paymentLogs tr := List.filterMap_append

theorem unsentValues_append (o tr : List PathObs) :
    unsentValues (o ++ tr) = unsentValues o ++ unsentValues tr := List.filterMap_append

theorem paymentLogs_process (obs : List Obs) :
    paymentLogs (obs.map .process) = obs.filterMap Obs.log? := List.filterMap_map

theorem unsentValues_process (obs : List Obs) : unsentValues (obs.map .process) = [] := by
  rw [unsentValues, List.filterMap_map]
  exact List.filterMap_none obs

theorem LeaksAlike.nil : LeaksAlike [] [] := ⟨rfl, rfl, iff_of_true rfl rfl⟩

theorem LeaksAlike.append {o o' tr tr' : List PathObs} (h : LeaksAlike o o')
    (htr : LeaksAlike tr tr') : LeaksAlike (o ++ tr) (o' ++ tr') := by
  refine ⟨?_, ?_, ?_⟩
  · rw [paymentLogs_append, paymentLogs_append, List.length_append, List.length_append,
      h.logs_length, htr.logs_length]
  · rw [unsentValues_append, unsentValues_append, List.length_append, List.length_append,
      h.unsent_length, htr.unsent_length]
  · rw [paymentLogs_append, paymentLogs_append, unsentValues_append, unsentValues_append]
    constructor
    · intro heq
      obtain ⟨hfirst, hrest⟩ := List.append_inj heq h.logs_length
      rw [h.logs_eq_iff.mp hfirst, htr.logs_eq_iff.mp hrest]
    · intro heq
      obtain ⟨hfirst, hrest⟩ := List.append_inj heq h.unsent_length
      rw [h.logs_eq_iff.mpr hfirst, htr.logs_eq_iff.mpr hrest]

/-- The log lines say nothing of the keys and secrets themselves. -/
theorem logs_of_redact_eq {obs obs' : List Obs}
    (h : obs.map Obs.redact = obs'.map Obs.redact) :
    obs.filterMap Obs.log? = obs'.filterMap Obs.log? := by
  have hlog : ∀ o : Obs, o.redact.log? = o.log? := by
    intro o
    cases o <;> rfl
  have hsame : Obs.log? ∘ Obs.redact = Obs.log? := funext hlog
  have hmapped := congrArg (List.filterMap Obs.log?) h
  rwa [List.filterMap_map, List.filterMap_map, hsame] at hmapped

theorem LeaksAlike.of_redact_eq {obs obs' : List Obs}
    (h : obs.map Obs.redact = obs'.map Obs.redact) :
    LeaksAlike (obs.map .process) (obs'.map .process) := by
  have heq := logs_of_redact_eq h
  refine ⟨?_, ?_, iff_of_true ?_ ?_⟩
  · rw [paymentLogs_process, paymentLogs_process, heq]
  · rw [unsentValues_process, unsentValues_process]
  · rw [paymentLogs_process, paymentLogs_process, heq]
  · rw [unsentValues_process, unsentValues_process]

/-- Two steps of processes that differ at most in keys and secrets. -/
theorem Process.step_lockstep {p q p' q' : Process} {e f : Event} {obs obs' : List Obs}
    (hpq : SameButCredentials p q) (hef : e.redact = f.redact) (hp : p.step e = some (p', obs))
    (hq : q.step f = some (q', obs')) :
    SameButCredentials p' q' ∧ obs.map Obs.redact = obs'.map Obs.redact := by
  have hredacted := p.step_redact e
  rw [hpq, hef, q.step_redact, hp, hq] at hredacted
  simp only [Option.map_some, Option.some.injEq, Prod.mk.injEq] at hredacted
  exact ⟨hredacted.1.symm, hredacted.2.symm⟩

namespace HeaderRules

variable {rules : HeaderRules} {p q p' q' : Process} {rid : Nat} {kind : PostKind}
  {uuid : String} {t : AnswerReadings} {o o' : List PathObs}

/-- The completion of a POST, or its failure on a header. -/
theorem step_answer_cases (h : rules.step p (.answer rid kind uuid t) = some (p', o)) :
    (∃ outcome obs, kind = .completed outcome ∧
      p.step (.answer rid outcome uuid t) = some (p', obs) ∧ o = obs.map .process) ∨
    ∃ value obs, kind = .headerRefused ∧ rules.refuses value = true ∧
      p.step (.answer rid (.httpError (rules.text value)) uuid t) = some (p', obs) ∧
        o = .unsent value :: obs.map .process := by
  unfold step at h
  dsimp only at h
  split at h
  · cases h
  · rename_i handler hfind
    cases kind with
    | completed outcome =>
        simp only [outcome?] at h
        by_cases hsent : rules.offending? handler.pending.credential = none
        · simp only [hsent, if_true, Option.map_eq_some_iff, Prod.mk.injEq] at h
          obtain ⟨r, hstep, rfl, rfl⟩ := h
          exact Or.inl ⟨outcome, r.2, rfl, hstep, rfl⟩
        · simp [hsent] at h
    | headerRefused =>
        simp only [outcome?] at h
        cases hvalue : rules.offending? handler.pending.credential with
        | none => simp [hvalue] at h
        | some value =>
            simp only [hvalue, Option.map_some, Option.map_eq_some_iff, Prod.mk.injEq] at h
            obtain ⟨r, hstep, rfl, rfl⟩ := h
            exact Or.inr ⟨value, r.2, rfl, List.find?_some hvalue, hstep, rfl⟩

/-- Two POSTs that fail on a header leave the same lines exactly when they fail on the
same value. -/
theorem refused_leaksAlike {obs obs' : List Obs} {v w : Json} (hpq : SameButCredentials p q)
    (hv : rules.refuses v = true) (hw : rules.refuses w = true)
    (hp : p.step (.answer rid (.httpError (rules.text v)) uuid t) = some (p', obs))
    (hq : q.step (.answer rid (.httpError (rules.text w)) uuid t) = some (q', obs')) :
    SameButCredentials p' q' ∧
      LeaksAlike (.unsent v :: obs.map .process) (.unsent w :: obs'.map .process) := by
  obtain ⟨before, key, request, reply, hstep⟩ := Process.step_httpError hp
  have hobs := hstep (rules.text v)
  rw [hp, Option.some.injEq, Prod.mk.injEq] at hobs
  -- The first process, had it quoted the other value.
  obtain ⟨hsame, hredacted⟩ := Process.step_lockstep hpq rfl (hstep (rules.text w)) hq
  have hlines : ∀ text, (before ++ errorLines text ++
      [Obs.answered rid key (.httpError text), .replied rid request reply]).filterMap Obs.log? =
        before.filterMap Obs.log? ++
          [.gatewayHttpError text, .gatewayUnavailable s!"Gateway error: {text}"] := by
    intro text
    rw [List.append_assoc, List.filterMap_append]
    rfl
  have hfirst : paymentLogs (.unsent v :: obs.map .process) = before.filterMap Obs.log? ++
      [.gatewayHttpError (rules.text v),
        .gatewayUnavailable s!"Gateway error: {rules.text v}"] := by
    rw [← hlines, ← hobs.2]
    exact paymentLogs_process obs
  have hsecond : paymentLogs (.unsent w :: obs'.map .process) = before.filterMap Obs.log? ++
      [.gatewayHttpError (rules.text w),
        .gatewayUnavailable s!"Gateway error: {rules.text w}"] := by
    rw [← hlines, logs_of_redact_eq hredacted]
    exact paymentLogs_process obs'
  have hunsent : ∀ (value : Json) (obs : List Obs),
      unsentValues (.unsent value :: obs.map .process) = [value] :=
    fun value obs => congrArg (value :: ·) (unsentValues_process obs)
  refine ⟨hsame, ?_, ?_, ?_⟩
  · rw [hfirst, hsecond, List.length_append, List.length_append]
    rfl
  · rw [hunsent, hunsent]
    rfl
  · rw [hfirst, hsecond, hunsent, hunsent, List.append_cancel_left_eq, List.singleton_inj]
    constructor
    · intro heq
      exact rules.quotes v w hv hw (LogLine.gatewayHttpError.inj (List.cons.inj heq).1)
    · intro heq
      rw [heq]

theorem step_lockstep {e f : PathEvent} (hpq : SameButCredentials p q)
    (hef : e.redact = f.redact) (hp : rules.step p e = some (p', o))
    (hq : rules.step q f = some (q', o')) : SameButCredentials p' q' ∧ LeaksAlike o o' := by
  -- Away from the headers a step is one of the process.
  have hplain : ∀ {e f : Event}, e.redact = f.redact →
      (p.step e).map (fun r => (r.1, r.2.map PathObs.process)) = some (p', o) →
      (q.step f).map (fun r => (r.1, r.2.map PathObs.process)) = some (q', o') →
      SameButCredentials p' q' ∧ LeaksAlike o o' := by
    intro e f hef hmapped hmapped'
    simp only [Option.map_eq_some_iff, Prod.mk.injEq] at hmapped hmapped'
    obtain ⟨r, hstep, rfl, rfl⟩ := hmapped
    obtain ⟨r', hstep', rfl, rfl⟩ := hmapped'
    obtain ⟨hsame, hredacted⟩ := Process.step_lockstep hpq hef hstep hstep'
    exact ⟨hsame, .of_redact_eq hredacted⟩
  cases e with
  | load read t =>
      cases f with
      | load read' t' =>
          injection hef with hread ht
          exact hplain (by rw [Event.redact, Event.redact, hread, ht]) hp hq
      | request rid request t => cases hef
      | answer rid kind uuid t => cases hef
  | request rid request t =>
      cases f with
      | request rid' request' t' =>
          cases hef
          exact hplain rfl hp hq
      | load read t => cases hef
      | answer rid kind uuid t => cases hef
  | answer rid kind uuid t =>
      cases f with
      | answer rid' kind' uuid' t' =>
          cases hef
          rcases step_answer_cases hp with
            ⟨outcome, obs, hkind, hstep, rfl⟩ | ⟨v, obs, hkind, hv, hstep, rfl⟩
          · rcases step_answer_cases hq with
              ⟨outcome', obs', hkind', hstep', rfl⟩ | ⟨w, obs', hkind', -, -, -⟩
            · rw [hkind] at hkind'
              cases hkind'
              obtain ⟨hsame, hredacted⟩ := Process.step_lockstep hpq rfl hstep hstep'
              exact ⟨hsame, .of_redact_eq hredacted⟩
            · rw [hkind] at hkind'
              cases hkind'
          · rcases step_answer_cases hq with
              ⟨outcome', obs', hkind', -, -⟩ | ⟨w, obs', -, hw, hstep', rfl⟩
            · rw [hkind] at hkind'
              cases hkind'
            · exact refused_leaksAlike hpq hv hw hstep hstep'
      | load read t => cases hef
      | request rid request t => cases hef

/-- Two runs of the payment path that differ at most in keys and secrets, with the same
kinds of gateway outcome, write the same log lines exactly when the header values that
could not be sent are the same in both, one after the other. -/
theorem logs_eq_iff (rules : HeaderRules) (settings : Settings) (m m' : CredentialManager)
    (hm : m.redact = m'.redact) (es fs : List PathEvent)
    (hsame : es.map PathEvent.redact = fs.map PathEvent.redact) (p q : Process)
    (tr tr' : List PathObs) (hrun : run rules.step (.start settings m) es = some (p, tr))
    (hrun' : run rules.step (.start settings m') fs = some (q, tr')) :
    paymentLogs tr = paymentLogs tr' ↔ unsentValues tr = unsentValues tr' := by
  have hstart : SameButCredentials (.start settings m) (.start settings m') := by
    simp only [SameButCredentials, Process.redact, Process.start, Connector.redact,
      Option.map_some, hm]
  have hboth := run_lockstep (R := SameButCredentials) (Q := LeaksAlike) LeaksAlike.nil
    (fun _ _ _ _ h htr => h.append htr)
    (fun _ _ _ _ _ _ _ _ hpq hef hp hq => step_lockstep hpq hef hp hq)
    hstart hsame hrun hrun'
  exact hboth.2.logs_eq_iff

/-! ## A library that refuses line breaks -/

/-- A line break and a backslash in the text of an error. -/
def escapeValue : List Char → List Char
  | [] => []
  | c :: cs =>
      if c = '\n' then '\\' :: 'n' :: escapeValue cs
      else if c = '\\' then '\\' :: '\\' :: escapeValue cs
      else c :: escapeValue cs

def hasLineBreak : Json → Bool
  | .str s => '\n' ∈ s.toList
  | _ => false

def illegalHeaderText : Json → String
  | .str s => "Illegal header value b'" ++ String.ofList (escapeValue s.toList) ++ "'"
  | _ => ""

/-- The value that was escaped. -/
def unescapeValue : List Char → List Char
  | '\\' :: 'n' :: cs => '\n' :: unescapeValue cs
  | '\\' :: _ :: cs => '\\' :: unescapeValue cs
  | c :: cs => c :: unescapeValue cs
  | [] => []

theorem unescapeValue_escapeValue (cs : List Char) : unescapeValue (escapeValue cs) = cs := by
  induction cs with
  | nil => rfl
  | cons c cs ih =>
      rw [escapeValue]
      split
      · rename_i hbreak
        rw [unescapeValue, ih, hbreak]
      · split
        · rename_i hslash
          rw [hslash]
          show '\\' :: unescapeValue (escapeValue cs) = _
          rw [ih]
        · rename_i hother
          rw [unescapeValue, ih]
          · exact fun _ hslash => absurd hslash hother
          · exact fun _ _ hslash => absurd hslash hother

theorem illegalHeaderText_quotes {s s' : String}
    (h : illegalHeaderText (.str s) = illegalHeaderText (.str s')) : s = s' := by
  have hescaped := (String.append_right_inj _).mp ((String.append_left_inj _).mp h)
  have hchars := congrArg (fun text => unescapeValue text.toList) hescaped
  simp only [String.toList_ofList, unescapeValue_escapeValue] at hchars
  exact String.toList_inj.mp hchars

/-- The rules of a library that cannot send a line break. -/
def lineBreakRules : HeaderRules where
  refuses := hasLineBreak
  text := illegalHeaderText
  quotes := by
    intro v w hv hw htext
    cases v with
    | str s =>
        cases w with
        | str s' => exact congrArg Json.str (illegalHeaderText_quotes htext)
        | _ => cases hw
    | _ => cases hv

/-- A load of the given secret, and a payment with it. -/
def payWith (apiSecret : String) (kind : PostKind) : List PathEvent :=
  [.load (.ok (sampleSecret 1 "key-v1" apiSecret)) (.at 1), .request 1 sampleRequest (.at 2),
    .answer 1 kind "uuid-1" (.at 3)]

theorem logs_eq_iff_answered :
    ∃ p tr q tr',
      run lineBreakRules.step (.start sampleSettings .init)
        (payWith "secret-a" (.completed (answerWith 200 "txn-1"))) = some (p, tr) ∧
      run lineBreakRules.step (.start sampleSettings .init)
        (payWith "secret-b" (.completed (answerWith 200 "txn-1"))) = some (q, tr') ∧
      paymentLogs tr = paymentLogs tr' ∧ unsentValues tr = unsentValues tr' := by
  obtain ⟨p, tr, hrun, hsent⟩ : ∃ p tr, run lineBreakRules.step (.start sampleSettings .init)
      (payWith "secret-a" (.completed (answerWith 200 "txn-1"))) = some (p, tr) ∧
        unsentValues tr = [] := exists_run (by decide +kernel)
  obtain ⟨q, tr', hrun', hsent'⟩ : ∃ q tr', run lineBreakRules.step (.start sampleSettings .init)
      (payWith "secret-b" (.completed (answerWith 200 "txn-1"))) = some (q, tr') ∧
        unsentValues tr' = [] := exists_run (by decide +kernel)
  have halike : unsentValues tr = unsentValues tr' := by rw [hsent, hsent']
  refine ⟨p, tr, q, tr', hrun, hrun', ?_, halike⟩
  exact (logs_eq_iff lineBreakRules sampleSettings .init .init rfl
    (payWith "secret-a" (.completed (answerWith 200 "txn-1")))
    (payWith "secret-b" (.completed (answerWith 200 "txn-1"))) rfl p q tr tr' hrun hrun').mpr halike

/-- The text of an error of the HTTP library. -/
def httpErrorText? : LogLine → Option String
  | .gatewayHttpError error => some error
  | _ => none

/-- A secret with a line break at its end is written to the log. -/
theorem not_logs_eq_lineBreak :
    ∃ p tr q tr',
      run lineBreakRules.step (.start sampleSettings .init)
        (payWith "secret-a\n" .headerRefused) = some (p, tr) ∧
      run lineBreakRules.step (.start sampleSettings .init)
        (payWith "secret-b\n" .headerRefused) = some (q, tr') ∧
      (paymentLogs tr).filterMap httpErrorText? = ["Illegal header value b'secret-a\\n'"] ∧
      paymentLogs tr ≠ paymentLogs tr' := by
  obtain ⟨p, tr, hrun, htext⟩ : ∃ p tr, run lineBreakRules.step (.start sampleSettings .init)
      (payWith "secret-a\n" .headerRefused) = some (p, tr) ∧
        (paymentLogs tr).filterMap httpErrorText? = ["Illegal header value b'secret-a\\n'"] :=
    exists_run (by decide +kernel)
  obtain ⟨q, tr', hrun', htext'⟩ : ∃ q tr', run lineBreakRules.step (.start sampleSettings .init)
      (payWith "secret-b\n" .headerRefused) = some (q, tr') ∧
        (paymentLogs tr').filterMap httpErrorText? = ["Illegal header value b'secret-b\\n'"] :=
    exists_run (by decide +kernel)
  refine ⟨p, tr, q, tr', hrun, hrun', htext, fun hsame => ?_⟩
  rw [hsame, htext'] at htext
  exact absurd htext (by decide)

end HeaderRules

end PaymentConnector
