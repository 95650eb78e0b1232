import PaymentConnector.KeyHandover
import PaymentConnector.Library.JsonText
import PaymentConnector.VaultClient

/-!
# Reading the secret back

Two programs read the answer of Vault to a read of the secret.  The connector decodes it and
takes `data.data.api_key`; `rotate-credentials.sh` takes what `grep -o` finds behind
`"api_key":` in its text, without decoding it, as the key that the gateway has to go on
accepting.

An answer of Vault is one line of JSON without blanks.

## Main results

* `apiKeyLines_text`, `versionLines_text` — what the two greps of step 1 print, for every
  document.
* `sameKey_iff` — when the script has the key that the connector has.
-/

namespace PaymentConnector

open Library Library.JsonText

/-! ## The commands of step 1 -/

/-- `echo "$text"`. -/
def echo (text : List Char) : List Char :=
  if isEchoOption (String.ofList text) then if 'n' ∈ text then [] else ['\n'] else text ++ ['\n']

/-- The field of a line with the given number, from zero on. -/
def field (delimiter : Char) : Nat → List Char → List Char
  | 0, line => line.takeWhile (· ≠ delimiter)
  | n + 1, line => field delimiter n (line.dropWhile (· ≠ delimiter)).tail

/-- `cut -d"$delimiter" -f"$n"`: a line without the delimiter is printed whole. -/
def cut (delimiter : Char) (n : Nat) (line : List Char) : List Char :=
  if delimiter ∈ line then field delimiter (n - 1) line else line

/-- Lines, and what they are as the output of a command. -/
def printed (lines : List (List Char)) : List Char := lines.flatMap (· ++ ['\n'])

/-- `echo "${current_creds}" | grep -o '"api_key":"[^"]*"' | cut -d'"' -f4`. -/
def apiKeyLines (currentCreds : List Char) : List (List Char) :=
  (grepOnly (memberAt "api_key".toList stringAfter?) (echo currentCreds)).map (cut quotation 4)

/-- `current_api_key`; a `grep` that finds nothing ends the script. -/
def currentApiKey? (currentCreds : List Char) : Option String :=
  let lines := apiKeyLines currentCreds
  if lines = [] then none else some (String.ofList (commandSubst (printed lines)))

/-- `echo "${metadata}" | grep -o '"current_version":[0-9]*' | grep -o '[0-9]*' || echo "0"`;
the second `grep` finds the empty match in every line. -/
def versionLines (metadata : List Char) : List (List Char) :=
  let found := grepOnly (memberAt "current_version".toList digitsAfter?) (echo metadata)
  if found = [] then ["0".toList] else found.flatMap (scan digitsAfter? 0)

/-- `get_current_version`, of the answer to its `curl`. -/
def getCurrentVersion (metadata : List Char) : String :=
  String.ofList (commandSubst (printed (versionLines metadata)))

/-- `$((current_version + 1))`, in 64 bits; nothing counts as zero.  Several lines are an error,
and a numeral that begins with a zero, which is octal, is left out. -/
def newVersion? (currentVersion : String) : Option Int :=
  let digits := currentVersion.toList
  if digits.all Char.isDigit = true ∧ (digits.head? = some '0' → digits = ['0']) then
    some ((Nat.ofDigitChars 10 digits 0 + 1 : Int).bmod (2 ^ 64))
  else none

/-! ## Answers of Vault -/

/-- The escape of a character as Vault writes it. -/
def goEscape (c : Char) : List Char :=
  if c = '\\' then "\\\\".toList
  else if c = quotation then "\\\"".toList
  else if c.toNat = 10 then "\\n".toList
  else if c.toNat = 13 then "\\r".toList
  else if c.toNat = 9 then "\\t".toList
  else if c.toNat < 32 ∨ c = '<' ∨ c = '>' ∨ c = '&' then
    "\\u00".toList ++ [Nat.digitChar (c.toNat / 16), Nat.digitChar (c.toNat % 16)]
  else if c.toNat = 8232 then "\\u2028".toList
  else if c.toNat = 8233 then "\\u2029".toList
  else [c]

theorem word_range {c : Char} (h : isWord c = true) : 45 ≤ c.toNat ∧ c.toNat ≤ 122 := by
  unfold isWord Char.isAlphanum Char.isAlpha Char.isUpper Char.isLower Char.isDigit at h
  simp only [Bool.or_eq_true, Bool.and_eq_true, decide_eq_true_eq, UInt32.le_iff_toNat_le] at h
  rcases h with (((hupper | hlower) | hdigit) | rfl) | rfl
  · have hfirst : 65 ≤ c.toNat := hupper.1
    have hlast : c.toNat ≤ 90 := hupper.2
    omega
  · have hfirst : 97 ≤ c.toNat := hlower.1
    have hlast : c.toNat ≤ 122 := hlower.2
    omega
  · have hfirst : 48 ≤ c.toNat := hdigit.1
    have hlast : c.toNat ≤ 57 := hdigit.2
    omega
  · decide
  · decide

theorem goEscape_word {c : Char} (h : isWord c = true) : goEscape c = [c] := by
  have hrange := word_range h
  have hcontrol : ¬ (c.toNat < 32 ∨ c = '<' ∨ c = '>' ∨ c = '&') := by
    rintro (hlt | rfl | rfl | rfl)
    · omega
    · exact absurd h (by decide)
    · exact absurd h (by decide)
    · exact absurd h (by decide)
  rw [goEscape, if_neg (isWord_ne h).2.1, if_neg (isWord_ne h).1, if_neg (by omega),
    if_neg (by omega), if_neg (by omega), if_neg hcontrol, if_neg (by omega), if_neg (by omega)]

/-- Neither a quotation mark nor a line break. -/
def Inner (c : Char) : Prop := c ≠ quotation ∧ c ≠ '\n'

instance : DecidablePred Inner := fun c =>
  inferInstanceAs (Decidable (c ≠ quotation ∧ c ≠ '\n'))

theorem inner_of_all {cs : List Char} (h : cs.all (fun c => decide (Inner c)) = true) :
    ∀ c ∈ cs, Inner c :=
  fun c hc => of_decide_eq_true (List.all_eq_true.mp h c hc)

theorem digitChar_inner {n : Nat} (h : n < 16) : Inner (Nat.digitChar n) := by
  have hall : ∀ n, n < 16 → Inner (Nat.digitChar n) := by decide
  exact hall n h

theorem goEscape_inner {c : Char} (hc : c ≠ quotation) : ∀ d ∈ goEscape c, Inner d := by
  unfold goEscape
  rw [if_neg hc]
  split_ifs with hback hline hreturn htab hcontrol
  · exact inner_of_all (by decide)
  · exact inner_of_all (by decide)
  · exact inner_of_all (by decide)
  · exact inner_of_all (by decide)
  · have hlt : c.toNat < 64 := by
      rcases hcontrol with hlt | rfl | rfl | rfl
      · omega
      · decide
      · decide
      · decide
    rw [List.forall_mem_append]
    refine ⟨inner_of_all (by decide), ?_⟩
    rw [List.forall_mem_cons, List.forall_mem_singleton]
    exact ⟨digitChar_inner (by omega), digitChar_inner (by omega)⟩
  · exact inner_of_all (by decide)
  · exact inner_of_all (by decide)
  · have hbreak : c ≠ '\n' := by
      rintro rfl
      exact hline rfl
    exact List.forall_mem_singleton.mpr ⟨hc, hbreak⟩

def goEncoding : Encoding where
  escape := goEscape
  kept_or_escaped := by
    intro c
    unfold goEscape
    split_ifs <;> first | exact Or.inl rfl | exact Or.inr ⟨_, _, rfl⟩
  escape_quotation := by decide
  no_quotation := fun c hc hin => (goEscape_inner hc _ hin).1 rfl
  one_line := by
    intro c hin
    by_cases hc : c = quotation
    · have hescaped : goEscape quotation = ['\\', quotation] := by decide
      rw [hc, hescaped] at hin
      exact absurd hin (by decide)
    · exact (goEscape_inner hc _ hin).2 rfl
  word := fun _ => goEscape_word

/-- What `json.loads` makes of numbers and of `true`, `false` and `null`. -/
structure ScalarReader where
  read : Scalar → Json
  no_object : ∀ x members, read x ≠ .obj members
  no_string : ∀ x s, read x ≠ .str s

mutual

/-- `json.loads` on the text of a document. -/
def loads (reader : ScalarReader) : Doc → Json
  | .scalar x => reader.read x
  | .str s => .str (String.ofList s)
  | .arr items => .arr (loadsItems reader items)
  | .obj members => .obj (loadsMembers reader members)

def loadsItems (reader : ScalarReader) : List Doc → List Json
  | [] => []
  | d :: ds => loads reader d :: loadsItems reader ds

def loadsMembers (reader : ScalarReader) : List (List Char × Doc) → List (String × Json)
  | [] => []
  | (name, d) :: ms => (String.ofList name, loads reader d) :: loadsMembers reader ms

end

/-! ## What the commands print -/

/-- The lines that `grep -o` gets: an answer is an object, no option of `echo`. -/
theorem echo_text (E : Encoding) (members : List (List Char × Doc)) :
    echo ((Doc.obj members).text E) = (Doc.obj members).text E ++ ['\n'] := by
  have hplain : isEchoOption (String.ofList ((Doc.obj members).text E)) = false := by
    unfold isEchoOption
    rw [String.toList_ofList, Doc.text]
    rfl
  rw [echo, if_neg (by rw [hplain]; exact Bool.false_ne_true)]

section Cut

variable {delimiter : Char}

theorem field_zero {first : List Char} (h : ∀ c ∈ first, c ≠ delimiter) (rest : List Char) :
    field delimiter 0 (first ++ delimiter :: rest) = first := by
  rw [field, List.takeWhile_append_of_pos (fun c hc => decide_eq_true (h c hc)),
    List.takeWhile_cons_of_neg (by simp), List.append_nil]

theorem field_succ (n : Nat) {first : List Char} (h : ∀ c ∈ first, c ≠ delimiter)
    (rest : List Char) :
    field delimiter (n + 1) (first ++ delimiter :: rest) = field delimiter n rest := by
  have hdrop : (first ++ delimiter :: rest).dropWhile (· ≠ delimiter) = delimiter :: rest := by
    rw [List.dropWhile_append_of_pos (fun c hc => decide_eq_true (h c hc)),
      List.dropWhile_cons_of_neg (by simp)]
  rw [field, hdrop, List.tail_cons]

end Cut

/-- The fourth field of `"name":"value"`. -/
theorem cut_member {name value : List Char} (hname : ∀ c ∈ name, c ≠ quotation)
    (hvalue : ∀ c ∈ value, c ≠ quotation) :
    cut quotation 4 (opening name ++ (quotation :: value ++ [quotation])) = value := by
  have hline : opening name ++ (quotation :: value ++ [quotation]) =
      [] ++ quotation :: (name ++ quotation :: ([':'] ++ quotation ::
        (value ++ quotation :: []))) := by
    simp [opening]
  rw [hline, cut, if_pos (by simp), field_succ 2 (List.forall_mem_nil _), field_succ 1 hname,
    field_succ 0 (List.forall_mem_singleton.mpr (by decide)), field_zero hvalue]

theorem apiKey_searchable : Searchable "api_key".toList :=
  ⟨by decide, List.all_eq_true.mp (by decide)⟩

theorem currentVersion_searchable : Searchable "current_version".toList :=
  ⟨by decide, List.all_eq_true.mp (by decide)⟩

theorem opening_no_digit : ∀ c ∈ opening "current_version".toList, c.isDigit = false := by
  have hall : (opening "current_version".toList).all (fun c => !c.isDigit) = true := by decide
  intro c hc
  simpa using List.all_eq_true.mp hall c hc

/-- What a value shows to a reader that does not decode it. -/
def stringValue? (E : Encoding) : Doc → Option (List Char)
  | .str s => some (stringText E s)
  | _ => none

/-- The digits that a value begins with. -/
def leadingDigits? (E : Encoding) (d : Doc) : Option (List Char) :=
  let digits := (d.text E).takeWhile Char.isDigit
  if digits = [] then none else some digits

theorem stringText_ne (E : Encoding) (s : List Char) : ∀ c ∈ stringText E s, c ≠ quotation := by
  intro c hc
  simpa using List.mem_takeWhile_imp hc

/-- The lines of the first pipeline: the undecoded strings of all members with the name. -/
theorem apiKeyLines_text (E : Encoding) (members : List (List Char × Doc)) :
    apiKeyLines ((Doc.obj members).text E) =
      ((Doc.obj members).valuesOf "api_key".toList).filterMap (stringValue? E) := by
  rw [apiKeyLines, echo_text, grepOnly_text E apiKey_searchable
    (stringAfter_reads apiKey_searchable), List.map_filterMap]
  congr 1
  funext d
  cases d with
  | str s =>
      exact congrArg some (cut_member (fun c hc => (isWord_ne (apiKey_searchable.word c hc)).1)
        (stringText_ne E s))
  | scalar x => rfl
  | arr items => rfl
  | obj ms => rfl

/-- The lines of the second pipeline: the leading digits of all members with the name, or a zero
where no member has it. -/
theorem versionLines_text (E : Encoding) (members : List (List Char × Doc)) :
    versionLines ((Doc.obj members).text E) =
      if (Doc.obj members).valuesOf "current_version".toList = [] then ["0".toList]
      else ((Doc.obj members).valuesOf "current_version".toList).filterMap (leadingDigits? E) := by
  have hfound : grepOnly (memberAt "current_version".toList digitsAfter?)
      ((Doc.obj members).text E ++ ['\n']) =
        ((Doc.obj members).valuesOf "current_version".toList).map fun d =>
          opening "current_version".toList ++ (d.text E).takeWhile Char.isDigit := by
    rw [grepOnly_text E currentVersion_searchable digitsAfter_reads]
    exact congrFun List.filterMap_eq_map _
  rw [versionLines, echo_text, hfound]
  simp only [List.map_eq_nil_iff]
  congr 1
  rw [List.flatMap_map, List.filterMap_eq_flatMap_toList]
  congr 1
  funext d
  have hdigits : ∀ c ∈ (d.text E).takeWhile Char.isDigit, c.isDigit = true :=
    fun c hc => List.mem_takeWhile_imp hc
  rw [scan_digits opening_no_digit hdigits, leadingDigits?]
  split <;> rfl

/-! ## What the connector reads -/

section Decoded

variable {reader : ScalarReader}

theorem mem_loadsMembers {key : String} {x : Json} {members : List (List Char × Doc)}
    (h : (key, x) ∈ loadsMembers reader members) :
    ∃ d, (key.toList, d) ∈ members ∧ loads reader d = x := by
  induction members with
  | nil => cases h
  | cons m members ih =>
      obtain ⟨name, d⟩ := m
      rw [loadsMembers] at h
      rcases List.mem_cons.mp h with heq | hin
      · obtain ⟨rfl, rfl⟩ := Prod.mk.inj heq
        rw [String.toList_ofList]
        exact ⟨d, List.mem_cons_self, rfl⟩
      · obtain ⟨d', hmem, hd'⟩ := ih hin
        exact ⟨d', List.mem_cons_of_mem _ hmem, hd'⟩

/-- What is not the default comes from a member. -/
theorem mem_of_get {key : String} {default : Json} {members : List (List Char × Doc)}
    (hne : (objDict (loadsMembers reader members)).get key default ≠ default) :
    ∃ d, (key.toList, d) ∈ members ∧
      loads reader d = (objDict (loadsMembers reader members)).get key default := by
  unfold PyDict.get PyDict.find? at hne ⊢
  cases hfound : (objDict (loadsMembers reader members)).reverse.find? (fun e => isKey key e.1) with
  | none =>
      rw [hfound] at hne
      exact absurd rfl hne
  | some e =>
      obtain ⟨⟨name, x⟩, hin, rfl⟩ := List.mem_map.mp
        (List.mem_reverse.mp (List.mem_of_find?_eq_some hfound))
      have hkey := List.find?_some hfound
      have hname : name = key := by simpa [isKey] using hkey
      rw [hname] at hin
      exact mem_loadsMembers hin

theorem mem_of_jsonGet {key : String} {default x : Json} {d : Doc}
    (h : jsonGet (loads reader d) key default = .ok x) (hne : x ≠ default) :
    ∃ members, d = .obj members ∧ ∃ d', (key.toList, d') ∈ members ∧ loads reader d' = x := by
  cases d with
  | obj members =>
      have hget := Except.ok.inj h
      rw [← hget] at hne
      obtain ⟨d', hin, hd'⟩ := mem_of_get hne
      exact ⟨members, rfl, d', hin, hd'.trans hget⟩
  | scalar y =>
      rw [loads] at h
      unfold jsonGet at h
      split at h
      · rename_i kvs hobj
        exact absurd hobj (reader.no_object y kvs)
      · cases h
  | str s => cases h
  | arr items => cases h

/-- The payload of a secret is the answer's `data.data`. -/
theorem data_of_parseResponse {response : PyDict} {path : String} {secret : KvSecret}
    (h : parseResponse response path = .ok secret) :
    jsonGet (response.get "data" (.obj [])) "data" (.obj []) = .ok secret.data := by
  unfold parseResponse at h
  dsimp only at h
  split at h
  · rename_i parsed hparsed
    rw [← Except.ok.inj h]
    cases hdata : jsonGet (response.get "data" (.obj [])) "data" (.obj []) with
    | error exc => simp [hdata, bind, Except.bind] at hparsed
    | ok payload =>
        simp only [hdata, bind, Except.bind, pure, Except.pure] at hparsed
        split at hparsed
        · cases hparsed
        · split at hparsed
          · cases hparsed
          · split at hparsed
            · cases hparsed
            · rw [← Except.ok.inj hparsed]
  · cases h

/-- The key that the connector reads is the value of a member of the answer. -/
theorem key_mem_valuesOf {members : List (List Char × Doc)} {path : String} {secret : KvSecret}
    {key : String}
    (hparse : parseResponse (objDict (loadsMembers reader members)) path = .ok secret)
    (hkey : jsonGet secret.data "api_key" (.str "") = .ok (.str key)) (hne : key ≠ "") :
    .str key.toList ∈ (Doc.obj members).valuesOf "api_key".toList := by
  have hfound : Json.str key ≠ .str "" := fun h => hne (Json.str.inj h)
  have hdata := data_of_parseResponse hparse
  -- An empty payload or wrapper has no key.
  have hpayload : secret.data ≠ .obj [] := by
    intro hempty
    rw [hempty] at hkey
    exact hfound (Except.ok.inj hkey).symm
  have hwrapper : (objDict (loadsMembers reader members)).get "data" (.obj []) ≠ .obj [] := by
    intro hempty
    rw [hempty] at hdata
    exact hpayload (Except.ok.inj hdata).symm
  obtain ⟨wrapper, hin, hw⟩ := mem_of_get hwrapper
  rw [← hw] at hdata
  obtain ⟨wrapped, rfl, payload, hin', hp⟩ := mem_of_jsonGet hdata hpayload
  rw [← hp] at hkey
  obtain ⟨fields, rfl, value, hin'', hv⟩ := mem_of_jsonGet hkey hfound
  have hvalue : value = .str key.toList := by
    cases value with
    | str s =>
        rw [← Json.str.inj hv, String.toList_ofList]
    | scalar x => exact absurd hv (reader.no_string x key)
    | arr items => cases hv
    | obj ms => cases hv
  rw [hvalue] at hin''
  have houter := (Doc.mem_members_of_mem hin).2 _
    ((Doc.mem_members_of_mem hin').2 _ (Doc.mem_members_of_mem hin'').1)
  exact Doc.mem_valuesOf houter
    (fun hin => (isWord_ne (apiKey_searchable.word _ hin)).1 rfl)

end Decoded

/-! ## The two readers -/

theorem stringText_one_line (E : Encoding) (s : List Char) : ∀ c ∈ stringText E s, c ≠ '\n' := by
  intro c hc heq
  obtain ⟨d, -, hin⟩ := List.mem_flatMap.mp ((List.takeWhile_prefix _).subset hc)
  rw [heq] at hin
  exact E.one_line d hin

/-- With one member of the name, the script takes its undecoded text. -/
theorem currentApiKey?_of_single (E : Encoding) {members : List (List Char × Doc)} {s : List Char}
    (h : (Doc.obj members).valuesOf "api_key".toList = [.str s]) :
    currentApiKey? ((Doc.obj members).text E) = some (String.ofList (stringText E s)) := by
  have hlines : apiKeyLines ((Doc.obj members).text E) = [stringText E s] := by
    rw [apiKeyLines_text, h]
    rfl
  rw [currentApiKey?, hlines]
  show some (String.ofList (commandSubst ((stringText E s ++ ['\n']) ++ []))) = _
  rw [List.append_nil, commandSubst_line (stringText_one_line E s)]

/-- A decimal numeral does not begin with a zero, unless it is one. -/
theorem toDigits_head (n : Nat) (h : (Nat.toDigits 10 n).head? = some '0') :
    Nat.toDigits 10 n = ['0'] := by
  induction n using Nat.strong_induction_on with
  | _ n ih =>
      by_cases hn : n < 10
      · rw [Nat.toDigits_of_lt_base hn] at h ⊢
        rw [Option.some.inj h]
      · rw [Nat.toDigits_of_base_le (by decide) (by omega)] at h
        have hhead : (Nat.toDigits 10 (n / 10)).head? = some '0' := by
          rwa [List.head?_append_of_ne_nil _ Nat.toDigits_ne_nil] at h
        have hzero := congrArg (Nat.ofDigitChars 10 · 0) (ih (n / 10) (by omega) hhead)
        rw [Nat.ofDigitChars_ten_toDigits] at hzero
        have htoo : Nat.ofDigitChars 10 ['0'] 0 = 0 := rfl
        omega

/-- With one version shown, the script numbers the new secret by the next one. -/
theorem newVersion?_of_single (E : Encoding) {members : List (List Char × Doc)} {x : Scalar}
    {n : Nat} (h : (Doc.obj members).valuesOf "current_version".toList = [.scalar x])
    (hx : x.text = Nat.toDigits 10 n) :
    newVersion? (getCurrentVersion ((Doc.obj members).text E)) =
      some ((n + 1 : Int).bmod (2 ^ 64)) := by
  have hdigits : ∀ c ∈ Nat.toDigits 10 n, c.isDigit = true :=
    fun c hc => Nat.isDigit_of_mem_toDigits (by decide) (by decide) hc
  have hleading : leadingDigits? E (.scalar x) = some (Nat.toDigits 10 n) := by
    rw [leadingDigits?, Doc.text, hx, List.takeWhile_eq_self_iff.mpr hdigits,
      if_neg Nat.toDigits_ne_nil]
  have hlines : versionLines ((Doc.obj members).text E) = [Nat.toDigits 10 n] := by
    rw [versionLines_text, h, if_neg (List.cons_ne_nil _ _), List.filterMap_cons_some hleading]
    rfl
  have hone : ∀ c ∈ Nat.toDigits 10 n, c ≠ '\n' := by
    intro c hc heq
    have hdigit := hdigits c hc
    rw [heq] at hdigit
    exact absurd hdigit (by decide)
  have hversion : getCurrentVersion ((Doc.obj members).text E) =
      String.ofList (Nat.toDigits 10 n) := by
    rw [getCurrentVersion, hlines]
    show String.ofList (commandSubst ((Nat.toDigits 10 n ++ ['\n']) ++ [])) = _
    rw [List.append_nil, commandSubst_line hone]
  rw [hversion, newVersion?, String.toList_ofList, Nat.ofDigitChars_ten_toDigits,
    if_pos ⟨List.all_eq_true.mpr hdigits, toDigits_head n⟩]

/-- From an answer of Vault in which one member has the name `api_key`, the script has the key
that the connector has exactly when JSON escapes none of its characters. -/
theorem sameKey_iff (E : Encoding) (reader : ScalarReader)
    (members : List (List Char × Doc)) (path : String) (secret : KvSecret) (key : String)
    (hparse : parseResponse (objDict (loadsMembers reader members)) path = .ok secret)
    (hkey : jsonGet secret.data "api_key" (.str "") = .ok (.str key)) (hne : key ≠ "")
    (hsingle : ((Doc.obj members).valuesOf "api_key".toList).length = 1) :
    currentApiKey? ((Doc.obj members).text E) = some key ↔
      ∀ c ∈ key.toList, E.escape c = [c] := by
  obtain ⟨v, hv⟩ := List.length_eq_one_iff.mp hsingle
  have hin := key_mem_valuesOf hparse hkey hne
  rw [hv, List.mem_singleton] at hin
  rw [← hin] at hv
  rw [currentApiKey?_of_single E hv, Option.some.injEq, ← stringText_eq_self_iff (E := E)]
  constructor
  · intro h
    have hlist := congrArg String.toList h
    rwa [String.toList_ofList] at hlist
  · intro h
    rw [h, String.ofList_toList]

/-- Integers and literals. -/
def sampleReader : ScalarReader where
  read := fun x =>
    if x.text = "true".toList then .bool true
    else if x.text = "false".toList then .bool false
    else if x.text = "null".toList then .null
    else .int (Nat.ofDigitChars 10 x.text 0)
  no_object := by
    intro x members
    split_ifs <;> exact fun h => by cases h
  no_string := by
    intro x s
    split_ifs <;> exact fun h => by cases h

def natScalar (n : Nat) : Scalar where
  text := Nat.toDigits 10 n
  plain := by
    intro c hc
    have hdigit := Nat.isDigit_of_mem_toDigits (by decide) (by decide) hc
    constructor <;> rintro rfl <;> exact absurd hdigit (by decide)

/-- An answer to a read of the secret, with the key given. -/
def sampleAnswer (key : String) : List (List Char × Doc) :=
  [("request_id".toList, .str "5b7a1f2e".toList), ("lease_duration".toList, .scalar (natScalar 0)),
    ("data".toList, .obj
      [("data".toList, .obj [("api_key".toList, .str key.toList),
        ("api_secret".toList, .str "ogw-init-secret-1700000000".toList)]),
      ("metadata".toList, .obj [("created_time".toList, .str "2026-01-01T00:00:00Z".toList),
        ("version".toList, .scalar (natScalar 1))])])]

theorem sameKey_iff_init :
    currentApiKey? ((Doc.obj (sampleAnswer "ogw-init-key-1700000000")).text goEncoding) =
        some "ogw-init-key-1700000000" ∧
      ∀ c ∈ "ogw-init-key-1700000000".toList, goEncoding.escape c = [c] := by
  have hkept : ∀ c ∈ "ogw-init-key-1700000000".toList, goEncoding.escape c = [c] :=
    List.forall_iff_forall_mem.mp (by decide +kernel)
  refine ⟨?_, hkept⟩
  exact (sameKey_iff goEncoding sampleReader (sampleAnswer "ogw-init-key-1700000000")
    "secret/data/orbitpay/vaultgateway" _ "ogw-init-key-1700000000" rfl rfl (by decide)
    (by decide)).mpr hkept

example : currentApiKey? ((Doc.obj [("api_key".toList, .str "a&b".toList)]).text goEncoding) =
    some "a\\u0026b" := by
  decide +kernel

end PaymentConnector
