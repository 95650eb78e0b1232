import PaymentConnector.Library.Base64
import PaymentConnector.Rotation

/-!
# The hand-over of the accepted keys

`rotate-credentials.sh` puts the keys that the gateway mock accepts into a Kubernetes secret:
the current and the new key in step 3, the new key alone in step 7.  The value goes through
`echo -n … | base64` into a JSON patch, out of the secret into `VALID_API_KEYS`, and
`_get_valid_keys` reads it back.

`base64` breaks its lines at 76 characters, and `$(…)` drops the last line break alone: what
has more than 57 bytes reaches the patch in several lines.

## Main results

* `handsOver_iff` — what one `echo -n … | base64` hands over.
* `ApiKey.handedOver_iff` — both steps hand their keys over exactly when the two keys take up
  56 bytes at most and `echo` prints the new one.
* `generated_keysHandedOver_iff` — two generated keys take up more.
-/

namespace PaymentConnector

open Library.Base64 VaultGatewayMock

/-! ## The commands of the script -/

/-- The bytes of a shell variable. -/
def utf8 (s : String) : List UInt8 := s.toByteArray.data.toList

def ofUtf8? (bytes : List UInt8) : Option String := String.fromUTF8? ⟨bytes.toArray⟩

/-- A word that the shell's `echo` takes for options. -/
def isEchoOption (s : String) : Bool :=
  match s.toList with
  | '-' :: c :: cs => (c :: cs).all (fun c => c = 'n' || c = 'e' || c = 'E')
  | _ => false

/-- `echo -n "$s"`; an option is not printed. -/
def echoN (s : String) : String := if isEchoOption s then "" else s

/-- Where `base64` breaks a line, without `-w`. -/
def base64Columns : Nat := 76

/-- `$(…)` drops the line breaks at the end. -/
def commandSubst (output : List Char) : List Char := output.rdropWhile (· = '\n')

/-- `$(echo -n "$keys" | base64)`. -/
def keysB64 (keys : String) : List Char :=
  commandSubst (wrap base64Columns (encode (utf8 (echoN keys))))

/-- `combined_keys_b64` of step 3. -/
def combinedKeysB64 (currentApiKey newApiKey : String) : List Char :=
  keysB64 (currentApiKey ++ "," ++ newApiKey)

/-- `new_key_only_b64` of step 7. -/
def newKeyOnlyB64 (newApiKey : String) : List Char := keysB64 newApiKey

/-! ## What is to be handed over -/

/-- A key of the gateway.  It may hold quotes: base64 writes them as any other character. -/
structure ApiKey where
  text : String
  nonempty : text ≠ ""
  no_comma : ¬ ',' ∈ text.toList
  no_space : ∀ c ∈ text.toList, isSpace c = false

theorem ApiKey.plain (key : ApiKey) : PlainKey key.text where
  nonempty := key.nonempty
  no_comma := key.no_comma
  stripped := strip_of_no_space key.no_space

/-- The value of a patch is one line, which decodes to the text that the gateway mock reads
the keys from. -/
structure HandsOver (value : List Char) (joined : String) (keys : List String) : Prop where
  one_line : ¬ '\n' ∈ value
  decodes : (decode? value).bind ofUtf8? = some joined
  accepted : getValidKeys (some joined) = keys

/-- Both steps of the script hand their keys over. -/
structure KeysHandedOver (currentApiKey newApiKey : String) : Prop where
  combined : HandsOver (combinedKeysB64 currentApiKey newApiKey)
    (currentApiKey ++ "," ++ newApiKey) [currentApiKey, newApiKey]
  newKeyOnly : HandsOver (newKeyOnlyB64 newApiKey) newApiKey [newApiKey]

/-! ## Bytes -/

theorem ofUtf8?_utf8 (s : String) : ofUtf8? (utf8 s) = some s := by
  have hbytes : (⟨(utf8 s).toArray⟩ : ByteArray) = s.toByteArray := rfl
  unfold ofUtf8? String.fromUTF8?
  rw [hbytes, dif_pos s.isValidUTF8]
  rfl

theorem length_utf8 (s : String) : (utf8 s).length = s.utf8ByteSize := rfl

theorem utf8_eq_nil_iff {s : String} : utf8 s = [] ↔ s = "" := by
  rw [← List.length_eq_zero_iff, length_utf8, String.utf8ByteSize_eq_zero_iff]

/-! ## Line breaks -/

theorem commandSubst_line {line : List Char} (h : ∀ c ∈ line, c ≠ '\n') :
    commandSubst (line ++ ['\n']) = line := by
  unfold commandSubst
  rw [List.rdropWhile_concat_pos _ _ _ (by simp), List.rdropWhile_eq_self_iff]
  intro hne
  have hlast := h (line.getLast hne) (List.getLast_mem hne)
  simpa using hlast

/-- What stands before a character that is no line break is never dropped. -/
theorem commandSubst_keeps {c : Char} (hc : c ≠ '\n') (before after : List Char) :
    before ++ [c] <+: commandSubst (before ++ c :: after) := by
  have hsplit : before ++ c :: after = (before ++ [c]) ++ after := by simp
  rw [hsplit]
  unfold commandSubst
  induction after using List.reverseRecOn with
  | nil =>
      have hkept : (before ++ [c]).rdropWhile (· = '\n') = before ++ [c] :=
        List.rdropWhile_concat_neg _ _ _ (by simpa using hc)
      simp only [List.append_nil, hkept, List.prefix_rfl]
  | append_singleton after d ih =>
      have hassoc : before ++ [c] ++ (after ++ [d]) = before ++ [c] ++ after ++ [d] := by simp
      rw [hassoc]
      by_cases hd : d = '\n'
      · rw [List.rdropWhile_concat_pos _ _ _ (by simpa using hd)]
        exact ih (by simp)
      · rw [List.rdropWhile_concat_neg _ _ _ (by simpa using hd)]
        exact (List.prefix_append _ after).trans (List.prefix_append _ [d])

/-! ## One hand-over -/

/-- 57 bytes fill a line. -/
theorem length_encode_le_iff (s : String) :
    (encode (utf8 s)).length ≤ base64Columns ↔ s.utf8ByteSize ≤ 57 := by
  unfold base64Columns
  rw [length_encode, length_utf8]
  omega

theorem echoN_of_text {s : String} (hecho : isEchoOption s = false) : echoN s = s := by
  unfold echoN
  rw [hecho]
  rfl

theorem keysB64_of_le {s : String} (hne : s ≠ "") (hecho : isEchoOption s = false)
    (hle : s.utf8ByteSize ≤ 57) : keysB64 s = encode (utf8 s) := by
  have hencode : encode (utf8 s) ≠ [] := by
    intro hnil
    have hdecode := decode?_encode (utf8 s)
    rw [hnil] at hdecode
    exact hne (utf8_eq_nil_iff.mp (Option.some.inj hdecode).symm)
  unfold keysB64
  rw [echoN_of_text hecho, wrap_of_le hencode ((length_encode_le_iff s).mpr hle),
    commandSubst_line (ne_newline_of_mem_encode (utf8 s))]

/-- A longer text keeps a line break inside. -/
theorem newline_mem_keysB64 {s : String} (hecho : isEchoOption s = false)
    (hlt : 57 < s.utf8ByteSize) : '\n' ∈ keysB64 s := by
  have hlong : base64Columns < (encode (utf8 s)).length := by
    have hiff := length_encode_le_iff s
    omega
  obtain ⟨line, c, rest, hmem, hwrap⟩ := wrap_of_lt hlong
  have hc : c ≠ '\n' := ne_newline_of_mem_encode (utf8 s) c hmem
  have hsplit : line ++ '\n' :: c :: rest = (line ++ ['\n']) ++ c :: rest := by simp
  unfold keysB64
  rw [echoN_of_text hecho, hwrap, hsplit]
  apply (commandSubst_keeps hc _ rest).subset
  simp

/-- A text that `echo` takes for options leaves an empty value. -/
theorem keysB64_of_option {s : String} (hecho : isEchoOption s = true) : keysB64 s = [] := by
  unfold keysB64 echoN
  rw [if_pos hecho]
  rfl

theorem handsOver_iff {joined : String} {keys : List String} (hne : joined ≠ "")
    (hkeys : getValidKeys (some joined) = keys) :
    HandsOver (keysB64 joined) joined keys ↔
      joined.utf8ByteSize ≤ 57 ∧ isEchoOption joined = false := by
  constructor
  · intro h
    cases hecho : isEchoOption joined with
    | true =>
        have hdecodes := h.decodes
        rw [keysB64_of_option hecho] at hdecodes
        have hempty : ofUtf8? (utf8 "") = some joined := hdecodes
        rw [ofUtf8?_utf8, Option.some.injEq] at hempty
        exact absurd hempty.symm hne
    | false =>
        refine ⟨?_, rfl⟩
        by_contra hlong
        exact h.one_line (newline_mem_keysB64 hecho (by omega))
  · rintro ⟨hle, hecho⟩
    have hvalue := keysB64_of_le hne hecho hle
    refine
      { one_line := ?_
        decodes := ?_
        accepted := hkeys }
    · rw [hvalue]
      exact fun hmem => ne_newline_of_mem_encode (utf8 joined) '\n' hmem rfl
    · rw [hvalue, decode?_encode]
      exact ofUtf8?_utf8 joined

/-! ## Both steps -/

theorem not_isEchoOption_combined (currentApiKey newApiKey : String) :
    isEchoOption (currentApiKey ++ "," ++ newApiKey) = false := by
  have hmem : ',' ∈ (currentApiKey ++ "," ++ newApiKey).toList := by simp
  unfold isEchoOption
  split
  · rename_i c cs heq
    rw [heq] at hmem
    rw [Bool.eq_false_iff]
    intro hall
    rcases List.mem_cons.mp hmem with hdash | hrest
    · exact absurd hdash (by decide)
    · exact absurd (List.all_eq_true.mp hall ',' hrest) (by decide)
  · rfl

theorem utf8ByteSize_combined (currentApiKey newApiKey : String) :
    (currentApiKey ++ "," ++ newApiKey).utf8ByteSize =
      currentApiKey.utf8ByteSize + 1 + newApiKey.utf8ByteSize := by
  rw [String.utf8ByteSize_append, String.utf8ByteSize_append]
  rfl

theorem keysHandedOver_iff {currentApiKey newApiKey : String} (hcurrent : PlainKey currentApiKey)
    (hnew : PlainKey newApiKey) :
    KeysHandedOver currentApiKey newApiKey ↔
      currentApiKey.utf8ByteSize + 1 + newApiKey.utf8ByteSize ≤ 57 ∧
        isEchoOption newApiKey = false := by
  have hne : currentApiKey ++ "," ++ newApiKey ≠ "" := by
    rw [ne_eq, ← String.utf8ByteSize_eq_zero_iff, utf8ByteSize_combined]
    omega
  have hcombined := handsOver_iff hne (getValidKeys_two hcurrent hnew)
  have honly := handsOver_iff hnew.nonempty (getValidKeys_one hnew)
  rw [utf8ByteSize_combined] at hcombined
  constructor
  · intro h
    exact ⟨(hcombined.mp h.combined).1, (honly.mp h.newKeyOnly).2⟩
  · rintro ⟨hle, hecho⟩
    exact
      { combined := hcombined.mpr ⟨hle, not_isEchoOption_combined currentApiKey newApiKey⟩
        newKeyOnly := honly.mpr ⟨by omega, hecho⟩ }

/-! ## Generated keys -/

theorem utf8ByteSize_ofList {cs : List Char} (h : ∀ c ∈ cs, c.toNat ≤ 127) :
    (String.ofList cs).utf8ByteSize = cs.length := by
  induction cs with
  | nil => rfl
  | cons c cs ih =>
      have hsplit : String.ofList (c :: cs) = String.singleton c ++ String.ofList cs := by simp
      have hc : c.utf8Size = 1 :=
        Char.utf8Size_eq_one_iff.mpr (UInt32.le_iff_toNat_le.mpr (h c List.mem_cons_self))
      rw [hsplit, String.utf8ByteSize_append, String.utf8ByteSize_singleton, hc,
        ih (fun d hd => h d (List.mem_cons_of_mem c hd)), List.length_cons]
      omega

theorem Generated.apiKey_no_space (g : Generated) :
    ∀ c ∈ g.apiKey.toList, isSpace c = false := by
  intro c hc
  exact (plain_of_range (g.apiKey_range c hc)).2

theorem Generated.utf8ByteSize_apiKey (g : Generated) :
    g.apiKey.utf8ByteSize = g.seconds.length + g.random.length + 5 := by
  have hascii : ∀ c ∈ g.apiKey.toList, c.toNat ≤ 127 := by
    intro c hc
    have hrange := g.apiKey_range c hc
    omega
  have hsize := utf8ByteSize_ofList hascii
  rw [String.ofList_toList, g.toList_apiKey] at hsize
  rw [hsize]
  simp only [List.length_append, List.length_cons, List.length_nil]
  omega

theorem Generated.not_isEchoOption (g : Generated) : isEchoOption g.apiKey = false := by
  unfold isEchoOption
  rw [g.toList_apiKey]
  rfl

/-- Ten digits and sixteen random characters make a key of 31 bytes, and two of them do not
fit in one line: a rotation away from a generated key hands nothing over. -/
theorem generated_keysHandedOver_iff (g g' : Generated) :
    KeysHandedOver g.apiKey g'.apiKey ↔
      g.seconds.length + g.random.length + (g'.seconds.length + g'.random.length) ≤ 46 := by
  rw [keysHandedOver_iff g.apiKey_plain g'.apiKey_plain, g.utf8ByteSize_apiKey,
    g'.utf8ByteSize_apiKey]
  have hecho := g'.not_isEchoOption
  constructor
  · rintro ⟨hle, -⟩
    omega
  · intro hle
    exact ⟨by omega, hecho⟩

def Generated.toApiKey (g : Generated) : ApiKey where
  text := g.apiKey
  nonempty := g.apiKey_plain.nonempty
  no_comma := g.apiKey_plain.no_comma
  no_space := g.apiKey_no_space

/-! ## Every key -/

/-- Both steps of a rotation hand their keys over exactly when the two keys fit in one line
and `echo` prints the new one. -/
theorem ApiKey.handedOver_iff (current new : ApiKey) :
    KeysHandedOver current.text new.text ↔
      current.text.utf8ByteSize + 1 + new.text.utf8ByteSize ≤ 57 ∧
        isEchoOption new.text = false :=
  keysHandedOver_iff current.plain new.plain

/-- The key that the setup writes, at some second. -/
def initKey : ApiKey where
  text := "ogw-init-key-1700000000"
  nonempty := by decide
  no_comma := by decide
  no_space := by
    have hall : "ogw-init-key-1700000000".toList.all (fun c => !isSpace c) = true := by decide
    intro c hc
    simpa using List.all_eq_true.mp hall c hc

def firstRotated : Generated where
  seconds := "1700000600".toList
  random := "abcdefgh01234567".toList
  seconds_digits := by decide
  random_chars := by decide

def secondRotated : Generated where
  seconds := "1700001200".toList
  random := "76543210hgfedcba".toList
  seconds_digits := by decide
  random_chars := by decide

/-- The first rotation after the setup fits: 55 bytes. -/
theorem ApiKey.handedOver_iff_first :
    KeysHandedOver initKey.text firstRotated.toApiKey.text ∧
      initKey.text.utf8ByteSize + 1 + firstRotated.toApiKey.text.utf8ByteSize ≤ 57 ∧
        isEchoOption firstRotated.toApiKey.text = false := by
  have hfits : initKey.text.utf8ByteSize + 1 + firstRotated.toApiKey.text.utf8ByteSize ≤ 57 ∧
      isEchoOption firstRotated.toApiKey.text = false :=
    ⟨by decide +kernel, firstRotated.not_isEchoOption⟩
  exact ⟨(ApiKey.handedOver_iff initKey firstRotated.toApiKey).mpr hfits, hfits⟩

/-- The second one does not: 63 bytes. -/
theorem ApiKey.not_handedOver_second :
    ¬ ∀ current new : ApiKey, KeysHandedOver current.text new.text := by
  intro h
  have hle := (generated_keysHandedOver_iff firstRotated secondRotated).mp
    (h firstRotated.toApiKey secondRotated.toApiKey)
  exact absurd hle (by decide)

end PaymentConnector
