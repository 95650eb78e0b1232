import PaymentConnector.Endpoint

/-!
# The gateway mock

`vaultgateway-mock` answers every POST on its own: it checks the API key
against the keys in its environment, draws a decision and a transaction id and
forgets both.  The `idempotency_key` of the payload is validated and never read.
-/

namespace PaymentConnector.VaultGatewayMock

/-- The payload, with the bounds that its validation checks. -/
structure AuthorizeRequest where
  merchantId : String
  amount : Rat
  currency : String
  cardToken : String
  idempotencyKey : String
  merchantId_length : 1 ≤ merchantId.length
  amount_pos : 0 < amount
  currency_length : 3 ≤ currency.length ∧ currency.length ≤ 3
  cardToken_length : 1 ≤ cardToken.length
  idempotencyKey_length : 1 ≤ idempotencyKey.length

structure AuthorizeResponse where
  transactionId : String
  status : String
  merchantId : String
  amount : Rat
  currency : String
  timestamp : String
  message : String

/-- The environment and the metrics.  The request counter is the list of the
labels it was incremented under. -/
structure Mock where
  validApiKeys : Option String
  requestsTotal : List (String × String)
  requestDurationSeconds : List (String × Rat)

/-- What one call draws and reads: `random()`, the hex digits of `uuid4`, the
clock before and after, the timestamp of the response. -/
structure Draws where
  random : Rat
  hex : String
  start : Rat
  finish : Rat
  timestamp : String

/-- `_get_valid_keys`. -/
def getValidKeys (validApiKeys : Option String) : List String :=
  let keysRaw := validApiKeys.getD "test-gateway-key-1,test-gateway-key-2"
  ((keysRaw.toList.splitOn ',').map (fun k => String.ofList (strip k))).filter (· ≠ "")

namespace Mock

/-- The service after its start. -/
def start (validApiKeys : Option String) : Mock where
  validApiKeys := validApiKeys
  requestsTotal := []
  requestDurationSeconds := []

def endpoint : String := "/api/v1/transactions/authorize"

/-- The metrics of one answer. -/
def record (m : Mock) (status : String) (d : Draws) : Mock :=
  { m with
    requestsTotal := m.requestsTotal ++ [(endpoint, status)]
    requestDurationSeconds := m.requestDurationSeconds ++ [(endpoint, d.finish - d.start)] }

/-- `authorize_transaction`: a refusal with its status code and detail, or a
response. -/
def authorizeTransaction (m : Mock) (payload : AuthorizeRequest)
    (xGatewayApiKey : Option String) (d : Draws) :
    Mock × Except (Nat × String) AuthorizeResponse :=
  match xGatewayApiKey with
  | none | some "" => (m.record "401" d, .error (401, "Missing API key"))
  | some key =>
      if key ∉ getValidKeys m.validApiKeys then
        (m.record "403" d, .error (403, "Invalid API key"))
      else
        let isApproved := d.random < 9 / 10
        (m.record "200" d, .ok
          { transactionId := "txn-" ++ String.ofList (d.hex.toList.take 12)
            status := if isApproved then "approved" else "declined"
            merchantId := payload.merchantId
            amount := payload.amount
            currency := payload.currency
            timestamp := d.timestamp
            message :=
              if isApproved then "Transaction approved" else "Transaction declined" })

end Mock

/-- Whether the mock lets a key pass. -/
def acceptsKey (validApiKeys : Option String) (key : String) : Bool :=
  key ≠ "" && key ∈ getValidKeys validApiKeys

/-- The mock creates a transaction exactly for an accepted key, whatever the
payload. -/
theorem authorizeTransaction_ok_iff (m : Mock) (payload : AuthorizeRequest) (key : String)
    (d : Draws) :
    (∃ response, (m.authorizeTransaction payload (some key) d).2 = .ok response) ↔
      acceptsKey m.validApiKeys key = true := by
  unfold Mock.authorizeTransaction acceptsKey
  split
  · rename_i h
    cases h
  · rename_i h
    rw [Option.some.injEq] at h
    simp [h]
  · rename_i key' hne h
    have hkey : key = key' := Option.some.inj h
    have hempty : key ≠ "" := fun h' => hne (hkey.symm.trans h')
    rw [← hkey]
    by_cases hmem : key ∈ getValidKeys m.validApiKeys
    · simp [hmem, hempty]
    · simp [hmem]

/-- The mock answers a key with a 200 and a transaction, or with a 401 or a 403 and none. -/
theorem authorizeTransaction_cases (m : Mock) (payload : AuthorizeRequest) (key : String)
    (d : Draws) :
    (∃ r, m.authorizeTransaction payload (some key) d = (m.record "200" d, .ok r)) ∨
      ∃ status code detail, status ≠ "200" ∧ (code = 401 ∨ code = 403) ∧
        m.authorizeTransaction payload (some key) d
          = (m.record status d, .error (code, detail)) := by
  unfold Mock.authorizeTransaction
  split
  · rename_i h
    cases h
  · exact Or.inr ⟨"401", 401, "Missing API key", by decide, Or.inl rfl, rfl⟩
  · rename_i key' hne h
    split
    · exact Or.inr ⟨"403", 403, "Invalid API key", by decide, Or.inr rfl, rfl⟩
    · exact Or.inl ⟨_, rfl⟩

/-! ## Keys in the environment -/

/-- A key that `_get_valid_keys` can return. -/
structure PlainKey (key : String) : Prop where
  nonempty : key ≠ ""
  no_comma : ¬ ',' ∈ key.toList
  stripped : strip key.toList = key.toList

private theorem not_mem_of_mem_splitOn {a : Char} {cs : List Char} :
    ∀ piece ∈ cs.splitOn a, ¬ a ∈ piece := by
  induction cs with
  | nil =>
      intro piece hpiece
      rw [List.splitOn_nil, List.mem_singleton] at hpiece
      rw [hpiece]
      exact List.not_mem_nil
  | cons c cs ih =>
      intro piece hpiece
      rw [List.splitOn_cons_eq_if_modifyHead] at hpiece
      split at hpiece
      · rcases List.mem_cons.mp hpiece with hnil | hrest
        · rw [hnil]
          exact List.not_mem_nil
        · exact ih piece hrest
      · rename_i hne
        have hca : ¬ a = c := fun h => hne (by simp [h])
        cases hpieces : cs.splitOn a with
        | nil => exact absurd hpieces (List.splitOn_ne_nil a cs)
        | cons first rest =>
            rw [hpieces, List.modifyHead_cons, List.mem_cons] at hpiece
            rcases hpiece with hfirst | hrest
            · rw [hfirst, List.mem_cons, not_or]
              exact ⟨hca, ih first (by rw [hpieces]; exact List.mem_cons_self)⟩
            · exact ih piece (by rw [hpieces]; exact List.mem_cons_of_mem _ hrest)

theorem plainKey_of_mem {validApiKeys : Option String} {key : String}
    (h : key ∈ getValidKeys validApiKeys) : PlainKey key := by
  obtain ⟨hmap, hne⟩ := List.mem_filter.mp h
  obtain ⟨piece, hpiece, hkey⟩ := List.mem_map.mp hmap
  have hlist : key.toList = strip piece := by rw [← hkey, String.toList_ofList]
  refine
    { nonempty := by simpa using hne
      no_comma := ?_
      stripped := by rw [hlist, strip_strip] }
  rw [hlist]
  intro hin
  have hsub : strip piece <:+: piece :=
    (List.rdropWhile_prefix isSpace _).isInfix.trans (List.dropWhile_suffix isSpace).isInfix
  exact not_mem_of_mem_splitOn piece hpiece (hsub.subset hin)

private theorem keep_plain {key : String} (h : PlainKey key) :
    String.ofList (strip key.toList) = key := by
  rw [h.stripped, String.ofList_toList]

/-- The environment after the last step of a rotation. -/
theorem getValidKeys_one {key : String} (h : PlainKey key) : getValidKeys (some key) = [key] := by
  unfold getValidKeys
  dsimp only [Option.getD_some]
  rw [List.splitOn_eq_singleton h.no_comma, List.map_singleton, keep_plain h]
  simp [h.nonempty]

/-- The environment while a rotation accepts two keys. -/
theorem getValidKeys_two {key key' : String} (h : PlainKey key) (h' : PlainKey key') :
    getValidKeys (some (key ++ "," ++ key')) = [key, key'] := by
  unfold getValidKeys
  have hsplit : (key ++ "," ++ key').toList = key.toList ++ ',' :: key'.toList := by simp
  dsimp only [Option.getD_some]
  rw [hsplit, List.splitOn_append_cons_self_of_not_mem h.no_comma,
    List.splitOn_eq_singleton h'.no_comma, List.map_cons, List.map_singleton, keep_plain h,
    keep_plain h']
  simp [h.nonempty, h'.nonempty]

/-! ## Answers -/

/-- The answer on the wire, as the connector's HTTP client sees it. -/
def answer : Except (Nat × String) AuthorizeResponse → PostOutcome
  | .error (statusCode, detail) => .response statusCode (.ok (.obj [("detail", .str detail)]))
  | .ok r => .response 200 (.ok (.obj
      [("transaction_id", .str r.transactionId), ("status", .str r.status),
        ("merchant_id", .str r.merchantId), ("amount", .float (.finite r.amount)),
        ("currency", .str r.currency), ("timestamp", .str r.timestamp),
        ("message", .str r.message)]))

end PaymentConnector.VaultGatewayMock

namespace PaymentConnector

/-- The payload that the connector sends; it always passes the mock's
validation. -/
def PaymentRequest.payload (payment : PaymentRequest) : VaultGatewayMock.AuthorizeRequest where
  merchantId := payment.merchantId
  amount := payment.amount
  currency := payment.currency
  cardToken := payment.cardToken
  idempotencyKey := payment.idempotencyKey
  merchantId_length := payment.merchantId_length.1
  amount_pos := payment.amount_range.1
  currency_length := ⟨payment.currency_length.ge, payment.currency_length.le⟩
  cardToken_length := payment.cardToken_length.1
  idempotencyKey_length := payment.idempotencyKey_length.1

end PaymentConnector
