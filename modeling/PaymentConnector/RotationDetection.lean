import Mathlib.Data.List.Chain
import PaymentConnector.AccessAudit
import PaymentConnector.ZeroDowntime

/-!
# What the rotation script detects

In step 5 `rotate-credentials.sh` polls `/health/ready` twenty times at most and looks for the
first ten characters of the new key, or for the new version under `"version"`, in the answer.
`HealthStatus` has neither: the answer has no pair of neighbours `w-` or `io`, which every
pattern has, and neither has the framework's answer to an exception.

A text is followed through its pieces: each keeps the two pairs apart and ends in neither of
their first letters.

## Main results

* `RotationScript.not_detects` — no pattern is found in a text that keeps the pairs apart.
* `readiness_unmatched` — the text of every answer of `readiness` does.
* `Service.polls_undetected` — nor does a run of the service answer a poll with a match.
* `Rotation.polls_all` — every rotation waits for all twenty polls.
* `Rotation.detection_iff` — detection and the current credential agree exactly while the
  connector does not run the new version.
-/

namespace PaymentConnector

open Library Library.Machine

variable {ι : Type}

/-! ## The text of an answer -/

/-- The blanks that `json.dumps` puts after a comma and after a colon; an answer of the
service has none. -/
structure Separators where
  item : Nat
  key : Nat

def Separators.compact : Separators := ⟨0, 0⟩

/-- The escape of one character inside quotes. -/
def escapeChar (c : Char) : List Char :=
  if c = '\\' then "\\\\".toList
  else if c.toNat = 34 then "\\\"".toList
  else if c.toNat = 8 then "\\b".toList
  else if c.toNat = 9 then "\\t".toList
  else if c.toNat = 10 then "\\n".toList
  else if c.toNat = 12 then "\\f".toList
  else if c.toNat = 13 then "\\r".toList
  else if c.toNat < 32 then
    "\\u00".toList ++ [Nat.digitChar (c.toNat / 16), Nat.digitChar (c.toNat % 16)]
  else [c]

def quote (s : String) : List Char :=
  "\"".toList ++ s.toList.flatMap escapeChar ++ "\"".toList

def boolText (b : Bool) : List Char := (if b then "true" else "false").toList

/-- The decimals of a float that is rounded to two of them; at least one is written. -/
def fractionText (hundredths : Nat) : List Char :=
  if hundredths % 10 = 0 then [Nat.digitChar (hundredths / 10)]
  else [Nat.digitChar (hundredths / 10), Nat.digitChar (hundredths % 10)]

/-- `repr` of a float that is rounded to two decimals: from `1e16` on with an exponent. -/
def floatRepr (x : Rat) : List Char :=
  let hundredths := (x * 100).num.natAbs
  let sign := if x < 0 then ['-'] else []
  let whole := Nat.toDigits 10 (hundredths / 100)
  if hundredths / 100 < 10 ^ 16 then sign ++ whole ++ '.' :: fractionText (hundredths % 100)
  else
    let digits := (Nat.toDigits 10 hundredths).rdropWhile (· = '0')
    let fraction := if digits.tail = [] then [] else '.' :: digits.tail
    sign ++ digits.take 1 ++ fraction ++ ['e', '+'] ++ Nat.toDigits 10 (whole.length - 1)

/-- `"key":value`. -/
def memberText (sep : Separators) (key : String) (value : List Char) : List Char :=
  quote key ++ ':' :: List.replicate sep.key ' ' ++ value

/-- The members after the first. -/
def membersText (sep : Separators) (members : List (String × List Char)) : List Char :=
  members.flatMap fun e => ',' :: List.replicate sep.item ' ' ++ memberText sep e.1 e.2

/-- An object with at least one member. -/
def objectText (sep : Separators) (key : String) (value : List Char)
    (members : List (String × List Char)) : List Char :=
  ['\x7b'] ++ memberText sep key value ++ membersText sep members ++ ['\x7d']

/-- The text of `model_dump`. -/
def HealthStatus.text (sep : Separators) (h : HealthStatus) : List Char :=
  objectText sep "status" (quote h.status)
    [("vault_connected", boolText h.vaultConnected),
      ("credential_status", quote h.credentialStatus),
      ("gateway_reachable", boolText h.gatewayReachable),
      ("uptime_seconds", floatRepr h.uptimeSeconds)]

/-- The text of the answers that a poll can get. -/
def ResponseBody.pollText? (sep : Separators) : ResponseBody → Option (List Char)
  | .health h => some (h.text sep)
  | .detail (.str s) => some (objectText sep "detail" (quote s) [])
  | .internalServerError => some "Internal Server Error".toList
  | _ => none

/-! ## Texts that no pattern matches -/

/-- The neighbours that every pattern has a pair of. -/
def Apart (c d : Char) : Prop := ¬ (c = 'w' ∧ d = '-') ∧ ¬ (c = 'i' ∧ d = 'o')

instance : DecidableRel Apart := fun c d =>
  inferInstanceAs (Decidable (¬ (c = 'w' ∧ d = '-') ∧ ¬ (c = 'i' ∧ d = 'o')))

/-- A piece of a text that keeps the pairs apart, whatever follows it. -/
structure Unmatched (text : List Char) : Prop where
  apart : text.IsChain Apart
  ends : text.getLast? ≠ some 'w' ∧ text.getLast? ≠ some 'i'

instance (text : List Char) : Decidable (Unmatched text) :=
  decidable_of_iff
    (text.IsChain Apart ∧ text.getLast? ≠ some 'w' ∧ text.getLast? ≠ some 'i')
    ⟨fun h => ⟨h.1, h.2⟩, fun h => ⟨h.apart, h.ends⟩⟩

theorem unmatched_of_ne {text : List Char} (h : ∀ c ∈ text, c ≠ 'w' ∧ c ≠ 'i') :
    Unmatched text where
  apart := by
    rw [List.isChain_iff_forall_rel_of_append_cons_cons]
    intro c d before after heq
    have hc := h c (by simp [heq])
    exact ⟨fun hpair => hc.1 hpair.1, fun hpair => hc.2 hpair.1⟩
  ends := ⟨fun hlast => (h 'w' (List.mem_of_getLast? hlast)).1 rfl,
    fun hlast => (h 'i' (List.mem_of_getLast? hlast)).2 rfl⟩

theorem Unmatched.append {left right : List Char} (hleft : Unmatched left)
    (hright : Unmatched right) : Unmatched (left ++ right) where
  apart := by
    refine hleft.apart.append hright.apart ?_
    intro c hc d _
    have hlast : left.getLast? = some c := hc
    exact ⟨fun hpair => hleft.ends.1 (hpair.1 ▸ hlast),
      fun hpair => hleft.ends.2 (hpair.1 ▸ hlast)⟩
  ends := by
    rw [List.getLast?_append]
    cases hlast : right.getLast? with
    | none => exact hleft.ends
    | some c =>
        rw [Option.some_or, ← hlast]
        exact hright.ends

theorem unmatched_flatMap {α : Type} {f : α → List Char} {xs : List α}
    (h : ∀ x ∈ xs, Unmatched (f x)) : Unmatched (xs.flatMap f) := by
  induction xs with
  | nil => exact unmatched_of_ne (fun c hc => absurd hc List.not_mem_nil)
  | cons x xs ih =>
      rw [List.flatMap_cons]
      exact (h x List.mem_cons_self).append (ih (fun y hy => h y (List.mem_cons_of_mem x hy)))

/-! ## The patterns -/

theorem grep_eq_true_iff {pattern text : List Char} :
    grep pattern text = true ↔ pattern <:+: text := by
  unfold grep
  rw [List.any_eq_true, List.infix_iff_prefix_suffix]
  constructor
  · rintro ⟨rest, hrest, hprefix⟩
    exact ⟨rest, List.isPrefixOf_iff_prefix.mp hprefix, (List.mem_tails rest text).mp hrest⟩
  · rintro ⟨rest, hprefix, hsuffix⟩
    exact ⟨rest, (List.mem_tails rest text).mpr hsuffix, List.isPrefixOf_iff_prefix.mpr hprefix⟩

theorem not_grep_of_pair {c d : Char} (hpair : ¬ Apart c d) {pattern text : List Char}
    (hpattern : [c, d] <:+: pattern) (h : Unmatched text) : grep pattern text = false := by
  rw [Bool.eq_false_iff, ne_eq, grep_eq_true_iff]
  intro hfound
  have hchain := h.apart.infix (hpattern.trans hfound)
  exact hpair (List.isChain_pair.mp hchain)

/-- No pattern of the script is in a text that keeps the pairs apart, whatever the new key and
the new version are. -/
theorem RotationScript.not_detects (script : RotationScript) {text : List Char}
    (h : Unmatched text) : script.detects (String.ofList text) = false := by
  have hkey : ['w', '-'] <:+: script.newApiKey.apiKey.toList.take 10 := by
    rw [script.newApiKey.toList_apiKey]
    exact ⟨['o', 'g'], _, rfl⟩
  have hversion : ['i', 'o'] <:+: "\"version\":".toList := by decide
  have hquoted : ['i', 'o'] <:+:
      ("\"version\":\"" ++ toString script.newVersion ++ "\"").toList := by
    have hsplit : "\"version\":\"" = "\"version\":" ++ "\"" := rfl
    rw [hsplit, String.toList_append, String.toList_append, String.toList_append,
      List.append_assoc, List.append_assoc]
    exact hversion.trans (List.prefix_append _ _).isInfix
  have hplain : ['i', 'o'] <:+: ("\"version\":" ++ toString script.newVersion).toList := by
    rw [String.toList_append]
    exact hversion.trans (List.prefix_append _ _).isInfix
  unfold RotationScript.detects
  rw [String.toList_ofList]
  simp only [List.any_cons, List.any_nil, Bool.or_false, Bool.or_eq_false_iff]
  exact ⟨not_grep_of_pair (by decide) hkey h, not_grep_of_pair (by decide) hquoted h,
    not_grep_of_pair (by decide) hplain h⟩

/-! ## The text of a readiness answer -/

/-- A comma or a colon with its blanks, or a brace. -/
theorem blanks_unmatched {c : Char} (hc : c ≠ 'w' ∧ c ≠ 'i') (blanks : Nat) :
    Unmatched (c :: List.replicate blanks ' ') := by
  apply unmatched_of_ne
  rw [List.forall_mem_cons]
  refine ⟨hc, fun d hd => ?_⟩
  rw [List.eq_of_mem_replicate hd]
  decide

theorem memberText_unmatched (sep : Separators) {key : String} {value : List Char}
    (hkey : Unmatched (quote key)) (hvalue : Unmatched value) :
    Unmatched (memberText sep key value) :=
  (hkey.append (blanks_unmatched (by decide) sep.key)).append hvalue

theorem objectText_unmatched (sep : Separators) {key : String} {value : List Char}
    {members : List (String × List Char)} (hkey : Unmatched (quote key))
    (hvalue : Unmatched value)
    (hmembers : ∀ e ∈ members, Unmatched (quote e.1) ∧ Unmatched e.2) :
    Unmatched (objectText sep key value members) := by
  have hopen : Unmatched ['\x7b'] := blanks_unmatched (by decide) 0
  have hclose : Unmatched ['\x7d'] := blanks_unmatched (by decide) 0
  have hrest : Unmatched (membersText sep members) := by
    apply unmatched_flatMap
    intro e he
    exact (blanks_unmatched (by decide) sep.item).append
      (memberText_unmatched sep (hmembers e he).1 (hmembers e he).2)
  exact ((hopen.append (memberText_unmatched sep hkey hvalue)).append hrest).append hclose

theorem boolText_unmatched (b : Bool) : Unmatched (boolText b) := by
  apply unmatched_of_ne
  cases b <;> simp [boolText]

private theorem ne_of_isDigit {c : Char} (h : c.isDigit = true) : c ≠ 'w' ∧ c ≠ 'i' := by
  constructor
  · rintro rfl
    exact absurd h (by decide)
  · rintro rfl
    exact absurd h (by decide)

theorem toDigits_ne {n : Nat} : ∀ c ∈ Nat.toDigits 10 n, c ≠ 'w' ∧ c ≠ 'i' :=
  fun _ hc => ne_of_isDigit (Nat.isDigit_of_mem_toDigits (by decide) (by decide) hc)

theorem fractionText_ne {n : Nat} (h : n < 100) : ∀ c ∈ fractionText n, c ≠ 'w' ∧ c ≠ 'i' := by
  have hdigit : ∀ d, d < 10 → (Nat.digitChar d).isDigit = true := by decide
  intro c hc
  unfold fractionText at hc
  split at hc
  · rw [List.mem_singleton.mp hc]
    exact ne_of_isDigit (hdigit _ (by omega))
  · rcases List.mem_cons.mp hc with rfl | hc
    · exact ne_of_isDigit (hdigit _ (by omega))
    · rw [List.mem_singleton.mp hc]
      exact ne_of_isDigit (hdigit _ (by omega))

/-- A number has digits, a sign, a point and an exponent. -/
theorem floatRepr_unmatched (x : Rat) : Unmatched (floatRepr x) := by
  have hnil : Unmatched [] := unmatched_of_ne (fun c hc => absurd hc List.not_mem_nil)
  have hsign : Unmatched (if x < 0 then ['-'] else []) := by
    split
    · exact unmatched_of_ne (by simp)
    · exact hnil
  unfold floatRepr
  dsimp only
  generalize (x * 100).num.natAbs = hundredths
  split
  · have hfraction : Unmatched ('.' :: fractionText (hundredths % 100)) := by
      apply unmatched_of_ne
      rw [List.forall_mem_cons]
      exact ⟨by decide, fractionText_ne (by omega)⟩
    exact (hsign.append (unmatched_of_ne toDigits_ne)).append hfraction
  · generalize hdigits : (Nat.toDigits 10 hundredths).rdropWhile (· = '0') = digits
    have hkept : ∀ c ∈ digits, c ≠ 'w' ∧ c ≠ 'i' := by
      intro c hc
      rw [← hdigits] at hc
      exact toDigits_ne c ((List.rdropWhile_prefix _ _).subset hc)
    have hfirst : Unmatched (digits.take 1) :=
      unmatched_of_ne (fun c hc => hkept c (List.mem_of_mem_take hc))
    have hfraction : Unmatched (if digits.tail = [] then [] else '.' :: digits.tail) := by
      split
      · exact hnil
      · apply unmatched_of_ne
        rw [List.forall_mem_cons]
        exact ⟨by decide, fun c hc => hkept c (List.mem_of_mem_tail hc)⟩
    have hexponent : Unmatched ['e', '+'] := unmatched_of_ne (by simp)
    exact (((hsign.append hfirst).append hfraction).append hexponent).append
      (unmatched_of_ne toDigits_ne)

theorem value_unmatched (status : CredentialStatus) : Unmatched (quote status.value) := by
  cases status <;> decide +kernel

/-- A status of the service is one of two words. -/
theorem status_unmatched (isReady : Bool) :
    Unmatched (quote (if isReady then "ready" else "not_ready")) := by
  cases isReady <;> decide +kernel

/-- The body that an answer from below the middlewares becomes. -/
def HttpAnswer.body : HttpAnswer → ResponseBody
  | .response _ body => body
  | .raised _ => .internalServerError

/-- An answer whose text no pattern matches. -/
def HttpAnswer.Unmatched (sep : Separators) (answer : HttpAnswer) : Prop :=
  ∃ text, answer.body.pollText? sep = some text ∧ PaymentConnector.Unmatched text

theorem HttpAnswer.raised_unmatched (sep : Separators) (exc : PyExc) :
    HttpAnswer.Unmatched sep (.raised exc) :=
  ⟨_, rfl, by decide +kernel⟩

/-- The answer of `readiness` keeps the pairs apart, in every state of the connector. -/
theorem readiness_unmatched (sep : Separators) (startTime : Rat) (vaultConnected : Bool)
    (credStatus : CredentialStatus) (gatewayReachable : Bool) (now : Rat) :
    (readiness startTime vaultConnected credStatus gatewayReachable now).1.Unmatched sep := by
  refine ⟨_, rfl, ?_⟩
  apply objectText_unmatched sep
  · decide +kernel
  · exact status_unmatched _
  · simp only [List.forall_mem_cons]
    refine ⟨⟨?_, boolText_unmatched _⟩, ⟨?_, value_unmatched _⟩, ⟨?_, boolText_unmatched _⟩,
      ⟨?_, floatRepr_unmatched _⟩, fun e he => absurd he List.not_mem_nil⟩
    · decide +kernel
    · decide +kernel
    · decide +kernel
    · decide +kernel

example : String.ofList (HealthStatus.text .compact ⟨"ready", true, "valid", true, 25 / 2⟩) =
    Rotation.readyResponse := by
  decide +kernel

/-! ## Every answer to a poll -/

/-- The stages of a request for the readiness route. -/
def CallStage.Polled (sep : Separators) : CallStage → Prop
  | .received | .admitted | .probing _ _ => True
  | .authorizing => False
  | .answered answer => answer.Unmatched sep

theorem RateLimitMiddleware.dispatch_cases (m : RateLimitMiddleware) (client : Option String)
    (created now : Rat) :
    (m.dispatch client created now).2.1 = .callNext ∨
      (m.dispatch client created now).2.1 = .response 429 "Rate limit exceeded" := by
  rw [dispatch_eq rfl]
  dsimp only
  split
  · exact Or.inl rfl
  · exact Or.inr rfl

/-- The refusal of the rate limiter. -/
theorem rateLimited_unmatched (sep : Separators) :
    HttpAnswer.Unmatched sep (.response 429 (.detail (.str "Rate limit exceeded"))) := by
  refine ⟨_, rfl, ?_⟩
  refine objectText_unmatched sep ?_ ?_ (fun e he => absurd he List.not_mem_nil)
  · decide +kernel
  · decide +kernel

namespace Service

/-- The requests for the readiness route. -/
structure PollsUnmatched (sep : Separators) (s : Service) : Prop where
  consistent : s.Consistent
  polled : ∀ rid call, s.call? rid = some call → call.request.route = .readiness →
    call.stage.Polled sep

section Polls

variable {sep : Separators} {s s' : Service} {e : ServiceEvent} {obs : List ServiceObs}

/-- A request moves to another stage. -/
private theorem PollsUnmatched.setStage (h : s.PollsUnmatched sep) {s₁ : Service}
    (hcalls : s₁.calls = s.calls) {rid : Nat} {stage : CallStage}
    (hstage : ∀ call, s.call? rid = some call → call.request.route = .readiness →
      stage.Polled sep) :
    ∀ rid' call, (s₁.setStage rid stage).call? rid' = some call →
      call.request.route = .readiness → call.stage.Polled sep := by
  intro rid' call hcall hroute
  have hlookup : s₁.call? rid' = s.call? rid' := by
    rw [call?, hcalls, call?]
  rw [call?_setStage, hlookup, Option.map_eq_some_iff] at hcall
  obtain ⟨before, hbefore, rfl⟩ := hcall
  by_cases hsame : rid' = rid
  · rw [if_pos hsame] at hroute ⊢
    exact hstage before (hsame ▸ hbefore) hroute
  · rw [if_neg hsame] at hroute ⊢
    exact h.polled rid' before hbefore hroute

private theorem PollsUnmatched.of_calls (h : s.PollsUnmatched sep) (hcalls : s'.calls = s.calls) :
    ∀ rid call, s'.call? rid = some call → call.request.route = .readiness →
      call.stage.Polled sep := by
  intro rid call hcall
  rw [call?, hcalls] at hcall
  exact h.polled rid call hcall

/-- The route of a readiness request leads to the await of the gateway. -/
private theorem PollsUnmatched.handle (h : s.PollsUnmatched sep) {call : HttpCall}
    (hcall : s.call? call.rid = some call) {vault : VaultAttempt} {t : StartReadings}
    (hstep : s.handle call vault t = some (s', obs)) :
    ∀ rid call, s'.call? rid = some call → call.request.route = .readiness →
      call.stage.Polled sep := by
  have hother : call.request.route ≠ .readiness → ∀ (stage : CallStage) (call' : HttpCall),
      s.call? call.rid = some call' → call'.request.route = .readiness → stage.Polled sep := by
    intro hne _ call' hcall' hroute
    rw [hcall] at hcall'
    rw [← Option.some.inj hcall'] at hroute
    exact absurd hroute hne
  unfold Service.handle at hstep
  cases hroute : call.request.route with
  | authorize payment =>
      simp only [hroute] at hstep
      split at hstep
      · cases hstep
      · cases hstep
        exact h.setStage rfl (hother (by simp [hroute]) _)
  | readiness =>
      simp only [hroute] at hstep
      cases hstep
      refine h.setStage rfl (fun _ _ _ => ?_)
      cases s.process.connector.credentialStatus t.check with
      | ok credStatus => trivial
      | error exc => exact HttpAnswer.raised_unmatched sep exc
  | liveness =>
      simp only [hroute] at hstep
      cases hstep
      exact h.setStage rfl (hother (by simp [hroute]) _)
  | metrics =>
      simp only [hroute] at hstep
      cases hstep
      exact h.setStage rfl (hother (by simp [hroute]) _)
  | framework statusCode detail =>
      simp only [hroute] at hstep
      cases hstep
      exact h.setStage rfl (hother (by simp [hroute]) _)

private theorem step_polled (h : s.PollsUnmatched sep) (hstep : s.step e = some (s', obs)) :
    ∀ rid call, s'.call? rid = some call → call.request.route = .readiness →
      call.stage.Polled sep := by
  cases e with
  | load env t =>
      simp only [step, Service.load] at hstep
      split at hstep
      · cases hstep
      · split at hstep
        · cases hstep
        · cases hstep
          exact h.of_calls rfl
  | receive rid request uuid now =>
      simp only [step] at hstep
      split at hstep
      · cases hstep
      · cases hstep
        intro rid' call hcall hroute
        rw [call?, List.find?_append, Option.or_eq_some_iff] at hcall
        rcases hcall with hcall | ⟨-, hcall⟩
        · exact h.polled rid' call hcall hroute
        · rw [List.mem_singleton.mp (List.mem_of_find?_eq_some hcall)]
          trivial
  | limit rid created now =>
      simp only [step] at hstep
      split at hstep
      · rename_i request _ _ hcall
        have hlimited := s.rateLimit.dispatch_cases request.client created now
        generalize s.rateLimit.dispatch request.client created now = r at hstep hlimited
        obtain ⟨rateLimit, dispatch, outputs, evicted⟩ := r
        cases hstep
        refine h.setStage rfl (fun _ _ _ => ?_)
        rcases hlimited with rfl | rfl
        · trivial
        · exact rateLimited_unmatched sep
      · cases hstep
  | handle rid vault t =>
      simp only [step] at hstep
      split at hstep
      · rename_i rid' request requestId startTime hcall
        have hrid : rid' = rid := s.call?_rid hcall
        rw [hrid] at hcall
        exact h.handle hcall hstep
      · cases hstep
  | answer rid outcome uuid t =>
      simp only [step] at hstep
      split at hstep
      · cases hstep
      · rename_i process obs' hanswer
        cases hstep
        obtain ⟨⟨waiting, hmem, hrid⟩, -, -⟩ := step_answer_stage hanswer
        obtain ⟨call, hcall, hauthorizing⟩ := h.consistent.handling waiting hmem
        rw [hrid] at hcall
        refine h.setStage rfl (fun call' hcall' hroute => ?_)
        rw [hcall] at hcall'
        have hpolled := h.polled rid call hcall (Option.some.inj hcall' ▸ hroute)
        rw [hauthorizing] at hpolled
        exact hpolled.elim
  | reach rid statusCode now =>
      simp only [step] at hstep
      split at hstep
      · cases hstep
        exact h.setStage rfl (fun _ _ _ => readiness_unmatched sep _ _ _ _ _)
      · cases hstep
  | respond rid now =>
      simp only [step] at hstep
      split at hstep
      · cases hstep
        intro rid' call hcall hroute
        rw [call?, call?_remove] at hcall
        split at hcall
        · cases hcall
        · exact h.polled rid' call hcall hroute
      · cases hstep

theorem step_pollsUnmatched (h : s.PollsUnmatched sep) (hstep : s.step e = some (s', obs)) :
    s'.PollsUnmatched sep where
  consistent := (step_moves h.consistent hstep).1
  polled := step_polled h hstep

theorem start_pollsUnmatched (settings : Settings) (now : Rat) :
    (start settings now).PollsUnmatched sep where
  consistent := start_consistent settings now
  polled := fun _ _ hcall _ => by cases hcall

end Polls

/-- Whatever a run of the service answers to a poll, the script detects nothing in it. -/
theorem polls_undetected (script : RotationScript) (sep : Separators) (settings : Settings)
    (started : Rat) {es : List ServiceEvent} {s s' : Service} {tr obs : List ServiceObs}
    (hrun : run step (start settings started) es = some (s, tr)) {rid : Nat} {call : HttpCall}
    (hcall : s.call? rid = some call) (hroute : call.request.route = .readiness) {now : Rat}
    (hstep : s.step (.respond rid now) = some (s', obs)) {response : HttpResponse}
    (hresponse : .responded rid response ∈ obs) :
    ∃ text, response.body.pollText? sep = some text ∧
      script.detects (String.ofList text) = false := by
  have hpolls : s.PollsUnmatched sep := run_state_invariant
    (fun _ _ _ _ h hstep => step_pollsUnmatched h hstep) (start_pollsUnmatched settings started)
    hrun
  have hpolled := hpolls.polled rid call hcall hroute
  simp only [step] at hstep
  split at hstep
  · rename_i answer hanswered
    cases hstep
    rw [hcall] at hanswered
    rw [Option.some.inj hanswered] at hpolled
    obtain ⟨text, htext, hunmatched⟩ := hpolled
    refine ⟨text, ?_, script.not_detects hunmatched⟩
    cases answer with
    | raised exc =>
        cases List.mem_singleton.mp hresponse
        exact htext
    | response statusCode body =>
        rcases List.mem_append.mp hresponse with haudit | hanswer
        · obtain ⟨output, -, heq⟩ := List.mem_map.mp haudit
          cases heq
        · cases List.mem_singleton.mp hanswer
          exact htext
  · cases hstep

end Service

/-! ## One iteration of the loop -/

/-- The current credential has the given version. -/
def Connector.RunsVersion (c : Connector) (version : Int) : Prop :=
  (c.credentialManager.bind CredentialManager.getCurrentCredential).bind Credential.version =
    some version

instance (c : Connector) (version : Int) : Decidable (c.RunsVersion version) :=
  inferInstanceAs (Decidable ((c.credentialManager.bind
    CredentialManager.getCurrentCredential).bind Credential.version = some version))

/-- The answer to `GET /health/ready`: `readiness`, with the answers of Vault and of the gateway
and the two clock readings. -/
def Connector.healthReady (c : Connector) (startTime : Rat) (vaultConnected : Bool)
    (statusCode : Option Nat) (check now : Rat) : HttpAnswer :=
  match c.credentialStatus check with
  | .error exc => .raised exc
  | .ok credStatus =>
      (readiness startTime vaultConnected credStatus
        (c.gatewayClient.isSome && GatewayClient.checkReachability statusCode) now).1

/-- What `curl -s` prints, whatever the status code is. -/
def HttpAnswer.curl? (sep : Separators) (answer : HttpAnswer) : Option String :=
  (answer.body.pollText? sep).map String.ofList

theorem Connector.healthReady_curl (c : Connector) (sep : Separators) (startTime : Rat)
    (vaultConnected : Bool) (statusCode : Option Nat) (check now : Rat) :
    ∃ text, (c.healthReady startTime vaultConnected statusCode check now).curl? sep =
      some (String.ofList text) ∧ Unmatched text := by
  have hanswer : (c.healthReady startTime vaultConnected statusCode check now).Unmatched sep := by
    unfold healthReady
    cases c.credentialStatus check with
    | error exc => exact HttpAnswer.raised_unmatched sep exc
    | ok credStatus => exact readiness_unmatched sep startTime vaultConnected credStatus _ now
  obtain ⟨text, htext, hunmatched⟩ := hanswer
  refine ⟨text, ?_, hunmatched⟩
  rw [HttpAnswer.curl?, htext, Option.map_some]

/-! ## The polls of a rotation -/

def RotationEvent.isPoll : RotationEvent ι → Bool
  | .poll _ => true
  | _ => false

/-- A poll whose answer is not matched, or another step. -/
def RotationEvent.Undetected (script : RotationScript) : RotationEvent ι → Prop
  | .poll healthResponse => script.detects healthResponse = false
  | _ => True

/-- Where the script can be after so many polls without a detection. -/
def Phase.AfterPolls (polls : Nat) : Phase → Prop
  | .start | .bothAccepted => polls = 0
  | .polling n => 0 < n ∧ polls + n = pollAttempts
  | .polled detected => detected = false ∧ polls = pollAttempts
  | .verified | .removed => polls = pollAttempts

namespace Rotation

section Loop

variable [DecidableEq ι] {script : RotationScript} {s s' : Rotation ι} {n : Nat}

/-- An answer without a match ends the iteration: the loop gives up or goes on. -/
theorem step_poll_undetected {healthResponse : String} (hphase : s.phase = .polling (n + 1))
    (h : script.detects healthResponse = false) :
    step script s (.poll healthResponse) =
      some ({ s with phase := if n = 0 then .polled false else .polling n }, []) := by
  simp only [step, hphase, h, Bool.false_eq_true, if_false]
  split <;> rfl

/-- No iteration on the answer of a replica detects anything. -/
theorem poll_not_detected (script : RotationScript) (sep : Separators)
    (hphase : s.phase = .polling (n + 1)) (c : Connector) (startTime : Rat)
    (vaultConnected : Bool) (statusCode : Option Nat) (check now : Rat) :
    ∃ healthResponse s' obs,
      (c.healthReady startTime vaultConnected statusCode check now).curl? sep =
        some healthResponse ∧
      step script s (.poll healthResponse) = some (s', obs) ∧ s'.phase ≠ .polled true := by
  obtain ⟨text, hcurl, hunmatched⟩ :=
    c.healthReady_curl sep startTime vaultConnected statusCode check now
  refine ⟨_, _, _, hcurl, step_poll_undetected hphase (script.not_detects hunmatched), ?_⟩
  show (if n = 0 then Phase.polled false else Phase.polling n) ≠ .polled true
  split
  · exact fun heq => Bool.false_ne_true (Phase.polled.inj heq)
  · exact Phase.noConfusion

/-- A step of the script, or of a replica, after `polls` iterations that detected nothing. -/
theorem step_afterPolls {e : RotationEvent ι} {obs : List (ι × Obs)} {polls : Nat}
    (h : s.phase.AfterPolls polls) (he : e.Undetected script)
    (hstep : step script s e = some (s', obs)) :
    s'.phase.AfterPolls (polls + if e.isPoll then 1 else 0) := by
  cases e with
  | acceptBoth =>
      simp only [step] at hstep
      split at hstep
      · rename_i hphase
        cases hstep
        rw [hphase] at h
        exact h
      · cases hstep
  | writeVault createdAt createdTime =>
      simp only [step] at hstep
      split at hstep
      · rename_i hphase
        cases hstep
        rw [hphase] at h
        have hpolls : polls = 0 := h
        subst hpolls
        exact ⟨by decide, rfl⟩
      · cases hstep
  | poll healthResponse =>
      have hundetected : script.detects healthResponse = false := he
      cases hphase : s.phase with
      | polling left =>
          cases left with
          | zero => simp [step, hphase] at hstep
          | succ n =>
              rw [step_poll_undetected hphase hundetected] at hstep
              cases hstep
              rw [hphase] at h
              have hsum : polls + (n + 1) = pollAttempts := h.2
              show (if n = 0 then Phase.polled false else Phase.polling n).AfterPolls (polls + 1)
              split
              · exact ⟨rfl, by omega⟩
              · exact ⟨by omega, by omega⟩
      | start | bothAccepted | polled | verified | removed => simp [step, hphase] at hstep
  | verify httpCode =>
      simp only [step] at hstep
      split at hstep
      · rename_i detected hphase
        cases hstep
        rw [hphase] at h
        exact h.2
      · cases hstep
  | removeOld =>
      simp only [step] at hstep
      split at hstep
      · rename_i hphase
        cases hstep
        rw [hphase] at h
        exact h
      · cases hstep
  | load i failure t =>
      obtain ⟨p, o, -, rfl⟩ := stepReplica_eq_some hstep
      exact h
  | request i rid request t =>
      obtain ⟨p, o, -, rfl⟩ := stepReplica_eq_some hstep
      exact h
  | answer i rid outcome uuid t =>
      obtain ⟨p, o, -, rfl⟩ := stepReplica_eq_some hstep
      exact h

/-- The script waits for all its polls, and goes on without a detection. -/
theorem polls_all {s₀ : Rotation ι} (hstart : s₀.phase = .start)
    {es : List (RotationEvent ι)} {tr : List (ι × Obs)}
    (hrun : run (step script) s₀ es = some (s, tr))
    (hpolls : ∀ e ∈ es, e.Undetected script) :
    s.phase.AfterPolls (es.countP RotationEvent.isPoll) := by
  have hinit : s₀.phase.AfterPolls 0 := by
    rw [hstart]
    rfl
  have hall : (∀ e ∈ es, e.Undetected script) →
      s.phase.AfterPolls (es.countP RotationEvent.isPoll) := by
    refine run_history_invariant
      (I := fun es s _ => (∀ e ∈ es, e.Undetected script) →
        s.phase.AfterPolls (es.countP RotationEvent.isPoll)) ?_ (fun _ => hinit) hrun
    intro es s tr e s' o _ hI hstep hes
    rw [List.countP_append, List.countP_singleton]
    rw [List.forall_mem_append, List.forall_mem_singleton] at hes
    exact step_afterPolls (hI hes.1) hes.2 hstep
  exact hall hpolls

end Loop

/-- An iteration of the loop on the answer of a replica detects the new version if and only if
the replica runs it, exactly in the states in which the replica does not run it: the answer
never says so. -/
theorem detection_iff [DecidableEq ι] (script : RotationScript) (sep : Separators)
    (s : Rotation ι) (n : Nat) (hphase : s.phase = .polling (n + 1)) (i : ι) (startTime : Rat)
    (vaultConnected : Bool) (statusCode : Option Nat) (check now : Rat) :
    ∃ healthResponse s' obs,
      ((s.replicas i).connector.healthReady startTime vaultConnected statusCode check now).curl?
        sep = some healthResponse ∧
      step script s (.poll healthResponse) = some (s', obs) ∧
      ((s'.phase = .polled true ↔ (s.replicas i).connector.RunsVersion script.newVersion) ↔
        ¬ (s.replicas i).connector.RunsVersion script.newVersion) := by
  obtain ⟨healthResponse, s', obs, hcurl, hstep, hphase'⟩ :=
    poll_not_detected script sep hphase (s.replicas i).connector startTime vaultConnected
      statusCode check now
  refine ⟨healthResponse, s', obs, hcurl, hstep, ?_⟩
  rw [iff_false_left hphase']

/-- What a poll of a replica prints, half a minute after its start. -/
private def sampleAnswer (c : Connector) : Option String :=
  (c.healthReady 0 true (some 200) 31 (63 / 2)).curl? .compact

/-- While the replica runs the old version, not to detect anything is right. -/
theorem detection_iff_waiting :
    ¬ sampleProcess.connector.RunsVersion 2 ∧
      ∃ healthResponse s' obs,
        sampleAnswer sampleProcess.connector = some healthResponse ∧
        step sampleScript { sampleRotation with phase := .polling 20 } (.poll healthResponse) =
          some (s', obs) ∧
        (s'.phase = .polled true ↔ sampleProcess.connector.RunsVersion 2) := by
  have hwaiting : ¬ sampleProcess.connector.RunsVersion 2 := by decide +kernel
  obtain ⟨healthResponse, s', obs, hcurl, hstep, hexact⟩ :=
    detection_iff sampleScript .compact { sampleRotation with phase := .polling 20 } 19 rfl () 0
      true (some 200) 31 (63 / 2)
  exact ⟨hwaiting, healthResponse, s', obs, hcurl, hstep, hexact.mpr hwaiting⟩

/-- Once it has loaded the new one, it is not. -/
theorem not_detection_loaded :
    ∃ s tr healthResponse s' obs,
      run (step sampleScript) sampleRotation
          [.acceptBoth, .writeVault "2026-01-01T00:00:00Z" "2026-01-01T00:00:00.000Z",
            .load () none (.at 30)] = some (s, tr) ∧
      sampleAnswer (s.replicas ()).connector = some healthResponse ∧
      step sampleScript s (.poll healthResponse) = some (s', obs) ∧
      ¬ (s'.phase = .polled true ↔ (s.replicas ()).connector.RunsVersion 2) := by
  have hrun : ∃ s tr, run (step sampleScript) sampleRotation
      [.acceptBoth, .writeVault "2026-01-01T00:00:00Z" "2026-01-01T00:00:00.000Z",
        .load () none (.at 30)] = some (s, tr) ∧ (s.replicas ()).connector.RunsVersion 2 :=
    exists_run (by decide +kernel)
  obtain ⟨s, tr, hrun, hruns⟩ := hrun
  have hphase : s.phase = .polling 20 := by
    have h := Option.some.inj hrun
    rw [← (Prod.mk.inj h).1]
    rfl
  obtain ⟨healthResponse, s', obs, hcurl, hstep, hphase'⟩ :=
    poll_not_detected sampleScript .compact hphase (s.replicas ()).connector 0 true (some 200) 31
      (63 / 2)
  exact ⟨s, tr, healthResponse, s', obs, hrun, hcurl, hstep, fun h => hphase' (h.mpr hruns)⟩

end Rotation

end PaymentConnector
