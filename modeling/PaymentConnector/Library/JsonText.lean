import Mathlib.Data.List.TakeWhile

/-!
# JSON texts and `grep -o`

The text of a JSON document without blanks, and what `grep -o` prints of it for a pattern that
is a quoted name, a colon and some of what follows it.  The pattern knows nothing of JSON; an
encoder writes a quotation mark inside a string after a backslash, so that the pattern finds
members and nothing else.

## Main results

* `scan_text` — the matches in the text of a document are those of its members, in their
  order, at any depth.
* `grepOnly_text` — the same for the lines of a text.
* `stringAfter_reads`, `digitsAfter_reads` — two ways to go on after the colon.
* `stringText_eq_self_iff` — when a string is printed as it is.
-/

namespace PaymentConnector.Library.JsonText

/-! ## Documents -/

def quotation : Char := Char.ofNat 34

/-- Letters, digits, `_` and `-`: what no encoder escapes. -/
def isWord (c : Char) : Bool := c.isAlphanum || c = '_' || c = '-'

/-- How an encoder writes a character inside quotation marks. -/
structure Encoding where
  escape : Char → List Char
  kept_or_escaped : ∀ c, escape c = [c] ∨ ∃ d cs, escape c = '\\' :: d :: cs
  escape_quotation : escape quotation = ['\\', quotation]
  no_quotation : ∀ c, c ≠ quotation → ¬ quotation ∈ escape c
  one_line : ∀ c, ¬ '\n' ∈ escape c
  word : ∀ c, isWord c = true → escape c = [c]

/-- The text of a number, or of `true`, `false` or `null`. -/
structure Scalar where
  text : List Char
  plain : ∀ c ∈ text, c ≠ quotation ∧ c ≠ '\n'

inductive Doc
  | scalar (x : Scalar)
  | str (s : List Char)
  | arr (items : List Doc)
  | obj (members : List (List Char × Doc))

def Encoding.quoted (E : Encoding) (s : List Char) : List Char :=
  quotation :: s.flatMap E.escape ++ [quotation]

theorem Encoding.flatMap_escape_of_kept (E : Encoding) {s : List Char}
    (h : ∀ c ∈ s, E.escape c = [c]) : s.flatMap E.escape = s := by
  induction s with
  | nil => rfl
  | cons c s ih =>
      rw [List.flatMap_cons, h c List.mem_cons_self,
        ih (fun d hd => h d (List.mem_cons_of_mem c hd)), List.singleton_append]

namespace Doc

mutual

/-- The text of a document. -/
def text (E : Encoding) : Doc → List Char
  | .scalar x => x.text
  | .str s => E.quoted s
  | .arr items => '[' :: itemsText E [] items ++ [']']
  | .obj members => '\x7b' :: membersText E [] members ++ ['\x7d']

/-- The items, with `sep` before the first and a comma before the others. -/
def itemsText (E : Encoding) (sep : List Char) : List Doc → List Char
  | [] => []
  | d :: ds => sep ++ d.text E ++ itemsText E [','] ds

def membersText (E : Encoding) (sep : List Char) : List (List Char × Doc) → List Char
  | [] => []
  | (name, d) :: ms => sep ++ E.quoted name ++ ':' :: d.text E ++ membersText E [','] ms

end

mutual

/-- The members of all objects in a document, each before those inside it. -/
def members : Doc → List (List Char × Doc)
  | .scalar _ => []
  | .str _ => []
  | .arr items => itemsMembers items
  | .obj ms => membersMembers ms

def itemsMembers : List Doc → List (List Char × Doc)
  | [] => []
  | d :: ds => d.members ++ itemsMembers ds

def membersMembers : List (List Char × Doc) → List (List Char × Doc)
  | [] => []
  | (name, d) :: ms => (name, d) :: d.members ++ membersMembers ms

end

end Doc

/-! ## `grep -o` -/

/-- The matches in a line, first to last; `length?` is the length of the match at a place, and
`skip` counts what is left of the last match. -/
def scan (length? : List Char → Option Nat) : Nat → List Char → List (List Char)
  | _, [] => []
  | skip + 1, _ :: cs => scan length? skip cs
  | 0, c :: cs =>
      match length? (c :: cs) with
      | some (n + 1) => (c :: cs).take (n + 1) :: scan length? n cs
      | _ => scan length? 0 cs

/-- `grep -o`: the matches in every line. -/
def grepOnly (length? : List Char → Option Nat) (text : List Char) : List (List Char) :=
  (text.splitOn '\n').flatMap (scan length? 0)

/-- A quoted name and a colon. -/
def opening (name : List Char) : List Char := quotation :: name ++ [quotation, ':']

/-- The pattern of a quoted name, a colon and what `after?` matches behind it. -/
def memberAt (name : List Char) (after? : List Char → Option Nat) (text : List Char) : Option Nat :=
  if (opening name).isPrefixOf text then
    (after? (text.drop (opening name).length)).map ((opening name).length + ·)
  else none

/-- The characters after the last quotation mark. -/
def lastPart : List Char → List Char
  | [] => []
  | c :: cs => if quotation ∈ cs then lastPart cs else if c = quotation then cs else c :: cs

theorem lastPart_of_not_mem {cs : List Char} (h : ¬ quotation ∈ cs) : lastPart cs = cs := by
  cases cs with
  | nil => rfl
  | cons c cs =>
      rw [List.mem_cons, not_or] at h
      rw [lastPart, if_neg h.2, if_neg (fun hc => h.1 hc.symm)]

theorem lastPart_quotation_cons (cs : List Char) : lastPart (quotation :: cs) = lastPart cs := by
  rw [lastPart]
  split
  · rfl
  · rename_i hout
    rw [if_pos rfl, lastPart_of_not_mem hout]

theorem lastPart_cons_of_mem (c : Char) {cs : List Char} (h : quotation ∈ cs) :
    lastPart (c :: cs) = lastPart cs := by
  rw [lastPart, if_pos h]

section Scan

variable {length? : List Char → Option Nat}

theorem scan_none {c : Char} {cs : List Char} (h : length? (c :: cs) = none) :
    scan length? 0 (c :: cs) = scan length? 0 cs := by
  rw [scan, h]

theorem scan_skip (before after : List Char) :
    scan length? before.length (before ++ after) = scan length? 0 after := by
  induction before with
  | nil => rfl
  | cons c before ih => exact ih

theorem scan_some {found after : List Char} (hne : found ≠ [])
    (h : length? (found ++ after) = some found.length) :
    scan length? 0 (found ++ after) = found :: scan length? 0 after := by
  obtain ⟨c, cs, rfl⟩ := List.exists_cons_of_ne_nil hne
  rw [List.cons_append] at h ⊢
  rw [scan, h]
  show (c :: (cs ++ after)).take (cs.length + 1) :: scan length? cs.length (cs ++ after) = _
  rw [scan_skip, List.take_succ_cons, List.take_left]

end Scan

/-! ## Where the pattern matches -/

/-- What may come after a value. -/
def Terminated (rest : List Char) : Prop :=
  ∀ c ∈ rest.head?, c = ',' ∨ c = ']' ∨ c = '\x7d'

theorem terminated_nil : Terminated [] := fun c h => by cases h

theorem terminated_cons {c : Char} (h : c = ',' ∨ c = ']' ∨ c = '\x7d') (rest : List Char) :
    Terminated (c :: rest) := by
  intro d hd
  rw [List.head?_cons, Option.mem_some_iff] at hd
  rwa [← hd]

/-- A name that can be looked for: words, and at least one character. -/
structure Searchable (name : List Char) : Prop where
  nonempty : name ≠ []
  word : ∀ c ∈ name, isWord c = true

theorem isWord_ne {c : Char} (h : isWord c = true) :
    c ≠ quotation ∧ c ≠ '\\' ∧ c ≠ ':' ∧ c ≠ ',' ∧ c ≠ ']' ∧ c ≠ '\x7d' := by
  refine ⟨?_, ?_, ?_, ?_, ?_, ?_⟩ <;> rintro rfl <;> exact absurd h (by decide)

section Member

variable {E : Encoding} {name : List Char} {after? : List Char → Option Nat}

theorem memberAt_opening (rest : List Char) :
    memberAt name after? (opening name ++ rest) =
      (after? rest).map ((opening name).length + ·) := by
  unfold memberAt
  rw [if_pos (List.isPrefixOf_iff_prefix.mpr (List.prefix_append _ _)), List.drop_left]

theorem memberAt_eq_none {text : List Char} (h : ¬ opening name <+: text) :
    memberAt name after? text = none := by
  unfold memberAt
  rw [if_neg (fun hp => h (List.isPrefixOf_iff_prefix.mp hp))]

/-- Nothing matches where no quotation mark stands. -/
theorem scan_plain {before : List Char} (h : ∀ c ∈ before, c ≠ quotation) (after : List Char) :
    scan (memberAt name after?) 0 (before ++ after) = scan (memberAt name after?) 0 after := by
  induction before with
  | nil => rfl
  | cons c before ih =>
      rw [List.cons_append, scan_none]
      · exact ih (fun d hd => h d (List.mem_cons_of_mem c hd))
      · apply memberAt_eq_none
        intro hprefix
        obtain ⟨hc, -⟩ := List.cons_prefix_cons.mp hprefix
        exact h c List.mem_cons_self hc.symm

theorem scan_char {c : Char} (h : c ≠ quotation) (after : List Char) :
    scan (memberAt name after?) 0 ([c] ++ after) = scan (memberAt name after?) 0 after :=
  scan_plain (List.forall_mem_singleton.mpr h) after

/-- Behind a quotation mark the pattern asks for the name, another one and a colon: of an encoded
string only the name itself gives that. -/
theorem name_eq_of_opening (hname : ∀ c ∈ name, isWord c = true) {s rest : List Char}
    (h : name ++ [quotation, ':'] <+: s.flatMap E.escape ++ quotation :: rest) :
    s = name ∧ ∃ rest', rest = ':' :: rest' := by
  induction s generalizing name with
  | nil =>
      rw [List.flatMap_nil, List.nil_append] at h
      cases name with
      | nil =>
          obtain ⟨rest', hrest⟩ := (List.cons_prefix_cons.mp h).2
          exact ⟨rfl, rest', hrest.symm⟩
      | cons a name =>
          obtain ⟨ha, -⟩ := List.cons_prefix_cons.mp h
          exact absurd ha (isWord_ne (hname a List.mem_cons_self)).1
  | cons c s ih =>
      rw [List.flatMap_cons, List.append_assoc] at h
      rcases E.kept_or_escaped c with hkept | ⟨d, cs, hescaped⟩
      · rw [hkept, List.singleton_append] at h
        cases name with
        | nil =>
            obtain ⟨hc, -⟩ := List.cons_prefix_cons.mp h
            rw [← hc, E.escape_quotation] at hkept
            exact absurd (congrArg List.length hkept) (by decide)
        | cons a name =>
            obtain ⟨rfl, hrest⟩ := List.cons_prefix_cons.mp h
            obtain ⟨rfl, hcolon⟩ := ih (fun c hc => hname c (List.mem_cons_of_mem a hc)) hrest
            exact ⟨rfl, hcolon⟩
      · rw [hescaped, List.cons_append] at h
        cases name with
        | nil =>
            obtain ⟨hc, -⟩ := List.cons_prefix_cons.mp h
            exact absurd hc (by decide)
        | cons a name =>
            obtain ⟨ha, -⟩ := List.cons_prefix_cons.mp h
            exact absurd ha (isWord_ne (hname a List.mem_cons_self)).2.1

theorem ne_of_terminated {rest : List Char} (h : Terminated rest) (rest' : List Char) :
    rest ≠ ':' :: rest' := by
  rintro rfl
  rcases h ':' rfl with h | h | h <;> exact absurd h (by decide)

/-- The head of what follows a closing quotation mark is none of the name's characters. -/
theorem not_opening_closing (hname : Searchable name) {rest : List Char}
    (h : ∀ c ∈ rest.head?, isWord c = false) : ¬ opening name <+: quotation :: rest := by
  intro hprefix
  have hrest := (List.cons_prefix_cons.mp hprefix).2
  obtain ⟨a, cs, rfl⟩ := List.exists_cons_of_ne_nil hname.nonempty
  cases rest with
  | nil => exact absurd (List.prefix_nil.mp hrest) (List.cons_ne_nil _ _)
  | cons c rest =>
      obtain ⟨rfl, -⟩ := List.cons_prefix_cons.mp hrest
      have hword := hname.word a List.mem_cons_self
      rw [h a rfl] at hword
      cases hword

theorem not_word_of_terminated {rest : List Char} (h : Terminated rest) :
    ∀ c ∈ rest.head?, isWord c = false := by
  intro c hc
  rcases h c hc with rfl | rfl | rfl <;> decide

/-- A string that is a value has no colon behind it. -/
theorem not_opening_str (hname : Searchable name) {rest : List Char} (hrest : Terminated rest)
    (s : List Char) :
    ¬ opening name <+: quotation :: (s.flatMap E.escape ++ quotation :: rest) := by
  intro hprefix
  obtain ⟨-, rest', hcolon⟩ := name_eq_of_opening hname.word (List.cons_prefix_cons.mp hprefix).2
  exact ne_of_terminated hrest rest' hcolon

/-- An escaped quotation mark. -/
theorem scan_escaped (after : List Char) :
    scan (memberAt name after?) 0 (E.escape quotation ++ after) =
      scan (memberAt name after?) 0 (quotation :: after) := by
  rw [E.escape_quotation]
  exact scan_char (by decide) (quotation :: after)

theorem scan_escape {c : Char} (hc : c ≠ quotation) (after : List Char) :
    scan (memberAt name after?) 0 (E.escape c ++ after) = scan (memberAt name after?) 0 after :=
  scan_plain (fun _ hd heq => E.no_quotation c hc (heq ▸ hd)) after

/-- Inside a string that is a value nothing matches. -/
theorem scan_inside (hname : Searchable name) {rest : List Char} (hrest : Terminated rest)
    (s : List Char) :
    scan (memberAt name after?) 0 (s.flatMap E.escape ++ quotation :: rest) =
      scan (memberAt name after?) 0 rest := by
  induction s with
  | nil =>
      exact scan_none (memberAt_eq_none
        (not_opening_closing hname (not_word_of_terminated hrest)))
  | cons c s ih =>
      rw [List.flatMap_cons, List.append_assoc]
      by_cases hc : c = quotation
      · rw [hc, scan_escaped, scan_none (memberAt_eq_none (not_opening_str hname hrest s))]
        exact ih
      · rw [scan_escape hc]
        exact ih

theorem quoted_append (s rest : List Char) :
    E.quoted s ++ rest = quotation :: (s.flatMap E.escape ++ quotation :: rest) := by
  simp [Encoding.quoted]

/-- Nothing matches in a string that is a value. -/
theorem scan_str (hname : Searchable name) {rest : List Char} (hrest : Terminated rest)
    (s : List Char) :
    scan (memberAt name after?) 0 (E.quoted s ++ rest) = scan (memberAt name after?) 0 rest := by
  rw [quoted_append, scan_none (memberAt_eq_none (not_opening_str hname hrest s)),
    scan_inside hname hrest]

/-! ## A member -/

/-- What `after?` matches of the text of the value `d`: all that it says of `d` is `shown?`, and
what is left of the value has the matches of the whole. -/
structure Reads (E : Encoding) (name : List Char) (after? : List Char → Option Nat)
    (shown? : Doc → Option (List Char)) (d : Doc) : Prop where
  none : shown? d = none → ∀ rest, Terminated rest → after? (d.text E ++ rest) = none
  some : ∀ shown, shown? d = some shown → ∃ left, d.text E = shown ++ left ∧
    ∀ rest, Terminated rest → after? (d.text E ++ rest) = some shown.length ∧
      scan (memberAt name after?) 0 (left ++ rest) =
        scan (memberAt name after?) 0 (d.text E ++ rest)

/-- What is printed for a member. -/
def printed? (name : List Char) (shown? : Doc → Option (List Char)) (m : List Char × Doc) :
    Option (List Char) :=
  if lastPart m.1 = name then (shown? m.2).map (opening name ++ ·) else none

/-- The values of all members whose name ends in the given one, behind its last quotation mark. -/
def Doc.valuesOf (name : List Char) (d : Doc) : List Doc :=
  d.members.filterMap fun m => if lastPart m.1 = name then some m.2 else none

theorem Doc.mem_members_of_mem {n : List Char} {d : Doc} {ms : List (List Char × Doc)}
    (h : (n, d) ∈ ms) :
    (n, d) ∈ (Doc.obj ms).members ∧ ∀ m ∈ d.members, m ∈ (Doc.obj ms).members := by
  rw [Doc.members]
  induction ms with
  | nil => cases h
  | cons m ms ih =>
      obtain ⟨n', d'⟩ := m
      rw [Doc.membersMembers]
      rcases List.mem_cons.mp h with heq | hin
      · obtain ⟨rfl, rfl⟩ := Prod.mk.inj heq
        exact ⟨by simp, fun m hm => by simp [hm]⟩
      · obtain ⟨hself, hinside⟩ := ih hin
        exact ⟨by simp [hself], fun m hm => by simp [hinside m hm]⟩

theorem Doc.mem_valuesOf {n : List Char} {d v : Doc} (h : (n, v) ∈ d.members)
    (hn : ¬ quotation ∈ n) :
    v ∈ d.valuesOf n := by
  rw [Doc.valuesOf, List.mem_filterMap]
  exact ⟨(n, v), h, if_pos (lastPart_of_not_mem hn)⟩

theorem filterMap_printed? (name : List Char) (shown? : Doc → Option (List Char)) (d : Doc) :
    d.members.filterMap (printed? name shown?) =
      (d.valuesOf name).filterMap fun v => (shown? v).map (opening name ++ ·) := by
  rw [Doc.valuesOf, List.filterMap_filterMap]
  congr 1
  funext m
  rw [printed?]
  split <;> rfl

variable {shown? : Doc → Option (List Char)}

/-- Between the closing quotation mark of a name and its value nothing matches. -/
theorem scan_colon (hname : Searchable name) (after : List Char) :
    scan (memberAt name after?) 0 (quotation :: ':' :: after) =
      scan (memberAt name after?) 0 after := by
  rw [scan_none (memberAt_eq_none (not_opening_closing hname (fun c hc => ?_)))]
  · exact scan_char (by decide) after
  · rw [← Option.some.inj hc]
    decide

/-- Where the name and the colon stand, the value decides. -/
theorem scan_opening (hname : Searchable name) {d : Doc} (hreads : Reads E name after? shown? d)
    {rest : List Char} (hrest : Terminated rest) :
    scan (memberAt name after?) 0 (opening name ++ (d.text E ++ rest)) =
      ((shown? d).map (opening name ++ ·)).toList ++
        scan (memberAt name after?) 0 (d.text E ++ rest) := by
  have hat : memberAt name after? (opening name ++ (d.text E ++ rest)) =
      (after? (d.text E ++ rest)).map ((opening name).length + ·) := memberAt_opening _
  cases hshown : shown? d with
  | none =>
      have hhead : opening name ++ (d.text E ++ rest) =
          quotation :: (name ++ quotation :: ':' :: (d.text E ++ rest)) := by simp [opening]
      rw [hreads.none hshown rest hrest, Option.map_none, hhead] at hat
      rw [hhead, scan_none hat, scan_plain (fun c hc => (isWord_ne (hname.word c hc)).1)]
      exact scan_colon hname _
  | some shown =>
      obtain ⟨left, htext, hleft⟩ := hreads.some shown hshown
      obtain ⟨hafter, hsame⟩ := hleft rest hrest
      rw [hafter, Option.map_some, ← List.length_append] at hat
      rw [← hsame]
      rw [htext, List.append_assoc, ← List.append_assoc] at hat ⊢
      exact scan_some (by simp [opening]) hat

/-- From its opening quotation mark on, a name that is not the one looked for is as from its
first character on. -/
theorem scan_name_of_inside (hname : Searchable name) {d : Doc}
    (hreads : Reads E name after? shown? d) {rest : List Char} (hrest : Terminated rest)
    {n : List Char}
    (hinside : scan (memberAt name after?) 0
        (n.flatMap E.escape ++ quotation :: ':' :: (d.text E ++ rest)) =
      (if quotation ∈ n then printed? name shown? (n, d) else none).toList ++
        scan (memberAt name after?) 0 (d.text E ++ rest)) :
    scan (memberAt name after?) 0
        (quotation :: (n.flatMap E.escape ++ quotation :: ':' :: (d.text E ++ rest))) =
      (printed? name shown? (n, d)).toList ++ scan (memberAt name after?) 0 (d.text E ++ rest) := by
  have hself : lastPart name = name :=
    lastPart_of_not_mem (fun hin => (isWord_ne (hname.word _ hin)).1 rfl)
  by_cases hn : n = name
  · have hkept : name.flatMap E.escape = name :=
      E.flatMap_escape_of_kept (fun c hc => E.word c (hname.word c hc))
    have hhead : quotation :: (name ++ quotation :: ':' :: (d.text E ++ rest)) =
        opening name ++ (d.text E ++ rest) := by simp [opening]
    rw [hn, hkept, hhead, scan_opening hname hreads hrest, printed?, if_pos hself]
  · have hnone : ¬ opening name <+:
        quotation :: (n.flatMap E.escape ++ quotation :: ':' :: (d.text E ++ rest)) :=
      fun hprefix => hn (name_eq_of_opening hname.word (List.cons_prefix_cons.mp hprefix).2).1
    rw [scan_none (memberAt_eq_none hnone), hinside]
    split
    · rfl
    · rename_i hout
      rw [printed?, if_neg (by rwa [lastPart_of_not_mem hout])]

theorem scan_name (hname : Searchable name) {d : Doc} (hreads : Reads E name after? shown? d)
    {rest : List Char} (hrest : Terminated rest) (n : List Char) :
    scan (memberAt name after?) 0
        (n.flatMap E.escape ++ quotation :: ':' :: (d.text E ++ rest)) =
      (if quotation ∈ n then printed? name shown? (n, d) else none).toList ++
        scan (memberAt name after?) 0 (d.text E ++ rest) := by
  induction n with
  | nil => exact scan_colon hname _
  | cons c n ih =>
      rw [List.flatMap_cons, List.append_assoc]
      by_cases hc : c = quotation
      · rw [hc, scan_escaped, scan_name_of_inside hname hreads hrest ih,
          if_pos List.mem_cons_self, printed?, printed?, lastPart_quotation_cons]
      · rw [scan_escape hc, ih]
        by_cases hin : quotation ∈ n
        · rw [if_pos hin, if_pos (List.mem_cons_of_mem c hin), printed?, printed?,
            lastPart_cons_of_mem c hin]
        · rw [if_neg hin, if_neg (fun h => (List.mem_cons.mp h).elim (fun he => hc he.symm) hin)]

/-- A name and its value: the pattern matches behind the last quotation mark of the name, if it
is the name looked for that stands there. -/
theorem scan_member (hname : Searchable name) {d : Doc} (hreads : Reads E name after? shown? d)
    {rest : List Char} (hrest : Terminated rest) (n : List Char) :
    scan (memberAt name after?) 0 (E.quoted n ++ ':' :: (d.text E ++ rest)) =
      (printed? name shown? (n, d)).toList ++
        scan (memberAt name after?) 0 (d.text E ++ rest) := by
  rw [quoted_append]
  exact scan_name_of_inside hname hreads hrest (scan_name hname hreads hrest n)

/-! ## A document -/

theorem comma_plain : ∀ c ∈ [','], c ≠ quotation := List.forall_mem_singleton.mpr (by decide)

theorem terminated_itemsText {rest : List Char} (hrest : Terminated rest) (ds : List Doc) :
    Terminated (Doc.itemsText E [','] ds ++ rest) := by
  cases ds with
  | nil => exact hrest
  | cons d ds => exact terminated_cons (Or.inl rfl) _

theorem terminated_membersText {rest : List Char} (hrest : Terminated rest)
    (ms : List (List Char × Doc)) : Terminated (Doc.membersText E [','] ms ++ rest) := by
  cases ms with
  | nil => exact hrest
  | cons m ms => exact terminated_cons (Or.inl rfl) _

mutual

/-- The matches in the text of a document are those of its members. -/
theorem scan_text (hname : Searchable name) (hreads : ∀ d, Reads E name after? shown? d)
    (d : Doc) {rest : List Char} (hrest : Terminated rest) :
    scan (memberAt name after?) 0 (d.text E ++ rest) =
      d.members.filterMap (printed? name shown?) ++ scan (memberAt name after?) 0 rest := by
  cases d with
  | scalar x => exact scan_plain (fun c hc => (x.plain c hc).1) rest
  | str s => exact scan_str hname hrest s
  | arr items =>
      have htext : (Doc.arr items).text E ++ rest =
          ['['] ++ (Doc.itemsText E [] items ++ ([']'] ++ rest)) := by simp [Doc.text]
      have hclose : Terminated ([']'] ++ rest) := terminated_cons (by decide) rest
      rw [htext, scan_char (by decide),
        scan_itemsText hname hreads items (List.forall_mem_nil _) hclose, scan_char (by decide),
        Doc.members]
  | obj ms =>
      have htext : (Doc.obj ms).text E ++ rest =
          ['\x7b'] ++ (Doc.membersText E [] ms ++ (['\x7d'] ++ rest)) := by simp [Doc.text]
      have hclose : Terminated (['\x7d'] ++ rest) := terminated_cons (by decide) rest
      rw [htext, scan_char (by decide),
        scan_membersText hname hreads ms (List.forall_mem_nil _) hclose, scan_char (by decide),
        Doc.members]

theorem scan_itemsText (hname : Searchable name) (hreads : ∀ d, Reads E name after? shown? d)
    (ds : List Doc) {sep : List Char} (hsep : ∀ c ∈ sep, c ≠ quotation) {rest : List Char}
    (hrest : Terminated rest) :
    scan (memberAt name after?) 0 (Doc.itemsText E sep ds ++ rest) =
      (Doc.itemsMembers ds).filterMap (printed? name shown?) ++
        scan (memberAt name after?) 0 rest := by
  cases ds with
  | nil => rfl
  | cons d ds =>
      rw [Doc.itemsText, List.append_assoc, List.append_assoc, scan_plain hsep,
        scan_text hname hreads d (terminated_itemsText hrest ds),
        scan_itemsText hname hreads ds comma_plain hrest, Doc.itemsMembers, List.filterMap_append,
        List.append_assoc]

theorem scan_membersText (hname : Searchable name) (hreads : ∀ d, Reads E name after? shown? d)
    (ms : List (List Char × Doc)) {sep : List Char} (hsep : ∀ c ∈ sep, c ≠ quotation)
    {rest : List Char} (hrest : Terminated rest) :
    scan (memberAt name after?) 0 (Doc.membersText E sep ms ++ rest) =
      (Doc.membersMembers ms).filterMap (printed? name shown?) ++
        scan (memberAt name after?) 0 rest := by
  cases ms with
  | nil => rfl
  | cons m ms =>
      obtain ⟨n, d⟩ := m
      have hafter := terminated_membersText (E := E) hrest ms
      have htext : Doc.membersText E sep ((n, d) :: ms) ++ rest =
          sep ++ (E.quoted n ++ ':' :: (d.text E ++ (Doc.membersText E [','] ms ++ rest))) := by
        simp [Doc.membersText]
      rw [htext, scan_plain hsep, scan_member hname (hreads d) hafter,
        scan_text hname hreads d hafter, scan_membersText hname hreads ms comma_plain hrest,
        Doc.membersMembers, List.filterMap_append]
      cases hprinted : printed? name shown? (n, d) <;> simp [hprinted]

end

end Member

section Lines

variable (E : Encoding)

theorem quoted_one_line (s : List Char) : ∀ c ∈ E.quoted s, c ≠ '\n' := by
  intro c hc heq
  rw [heq, Encoding.quoted, List.mem_append, List.mem_cons, List.mem_flatMap,
    List.mem_singleton] at hc
  rcases hc with (hc | ⟨d, -, hin⟩) | hc
  · exact absurd hc (by decide)
  · exact E.one_line d hin
  · exact absurd hc (by decide)

mutual

/-- The text of a document is one line. -/
theorem text_one_line (d : Doc) : ∀ c ∈ d.text E, c ≠ '\n' := by
  cases d with
  | scalar x => exact fun c hc => (x.plain c hc).2
  | str s => exact quoted_one_line E s
  | arr items =>
      rw [Doc.text, List.forall_mem_append, List.forall_mem_cons]
      exact ⟨⟨by decide, itemsText_one_line items (List.forall_mem_nil _)⟩,
        List.forall_mem_singleton.mpr (by decide)⟩
  | obj ms =>
      rw [Doc.text, List.forall_mem_append, List.forall_mem_cons]
      exact ⟨⟨by decide, membersText_one_line ms (List.forall_mem_nil _)⟩,
        List.forall_mem_singleton.mpr (by decide)⟩

theorem itemsText_one_line (ds : List Doc) {sep : List Char} (hsep : ∀ c ∈ sep, c ≠ '\n') :
    ∀ c ∈ Doc.itemsText E sep ds, c ≠ '\n' := by
  cases ds with
  | nil => exact List.forall_mem_nil _
  | cons d ds =>
      rw [Doc.itemsText, List.forall_mem_append, List.forall_mem_append]
      exact ⟨⟨hsep, text_one_line d⟩,
        itemsText_one_line ds (List.forall_mem_singleton.mpr (by decide))⟩

theorem membersText_one_line (ms : List (List Char × Doc)) {sep : List Char}
    (hsep : ∀ c ∈ sep, c ≠ '\n') : ∀ c ∈ Doc.membersText E sep ms, c ≠ '\n' := by
  cases ms with
  | nil => exact List.forall_mem_nil _
  | cons m ms =>
      obtain ⟨n, d⟩ := m
      rw [Doc.membersText, List.forall_mem_append, List.forall_mem_append, List.forall_mem_append,
        List.forall_mem_cons]
      exact ⟨⟨⟨hsep, quoted_one_line E n⟩, by decide, text_one_line d⟩,
        membersText_one_line ms (List.forall_mem_singleton.mpr (by decide))⟩

end

/-- `grep -o` prints a match for each value of a member with the name, when the text has one line
break at its end. -/
theorem grepOnly_text {name : List Char} {after? : List Char → Option Nat}
    {shown? : Doc → Option (List Char)} (hname : Searchable name)
    (hreads : ∀ d, Reads E name after? shown? d) (d : Doc) :
    grepOnly (memberAt name after?) (d.text E ++ ['\n']) =
      (d.valuesOf name).filterMap fun v => (shown? v).map (opening name ++ ·) := by
  have hone : ¬ '\n' ∈ d.text E := fun hin => text_one_line E d _ hin rfl
  have hscan := scan_text hname hreads d terminated_nil
  rw [List.append_nil] at hscan
  rw [grepOnly, List.splitOn_append_cons_self_of_not_mem hone, List.splitOn_nil, List.flatMap_cons,
    hscan]
  show (_ ++ []) ++ [] = _
  rw [List.append_nil, List.append_nil, filterMap_printed?]

end Lines

/-! ## After the colon -/

/-- `"[^"]*"`. -/
def stringAfter? : List Char → Option Nat
  | [] => none
  | c :: cs =>
      if c = quotation ∧ quotation ∈ cs then some ((cs.takeWhile (· ≠ quotation)).length + 2)
      else none

/-- `[0-9]*`. -/
def digitsAfter? (cs : List Char) : Option Nat := some (cs.takeWhile Char.isDigit).length

/-- `[0-9]*` in a line that has digits at its end only. -/
theorem scan_digits {before digits : List Char} (hbefore : ∀ c ∈ before, c.isDigit = false)
    (hdigits : ∀ c ∈ digits, c.isDigit = true) :
    scan digitsAfter? 0 (before ++ digits) = if digits = [] then [] else [digits] := by
  induction before with
  | nil =>
      rw [List.nil_append]
      split
      · rename_i hnil
        rw [hnil, scan]
      · rename_i hne
        have hall : digits.takeWhile Char.isDigit = digits := List.takeWhile_eq_self_iff.mpr hdigits
        have hat : digitsAfter? (digits ++ []) = some digits.length := by
          rw [List.append_nil, digitsAfter?, hall]
        have hfound := scan_some hne hat
        rwa [List.append_nil, scan] at hfound
  | cons c before ih =>
      have hnot : (c :: (before ++ digits)).takeWhile Char.isDigit = [] :=
        List.takeWhile_cons_of_neg (by simp [hbefore c List.mem_cons_self])
      rw [List.cons_append, scan, digitsAfter?, hnot]
      exact ih (fun d hd => hbefore d (List.mem_cons_of_mem c hd))

/-- The text of a string up to the first quotation mark in it. -/
def stringText (E : Encoding) (s : List Char) : List Char :=
  (s.flatMap E.escape).takeWhile (· ≠ quotation)

def stringShown? (E : Encoding) : Doc → Option (List Char)
  | .str s => some (quotation :: stringText E s ++ [quotation])
  | _ => none

def digitsShown? (E : Encoding) (d : Doc) : Option (List Char) :=
  some ((d.text E).takeWhile Char.isDigit)

section Readers

variable {E : Encoding} {name : List Char}

theorem takeWhile_quotation {before : List Char} (h : ∀ c ∈ before, c ≠ quotation)
    (after : List Char) : (before ++ quotation :: after).takeWhile (· ≠ quotation) = before := by
  rw [List.takeWhile_append_of_pos (fun c hc => decide_eq_true (h c hc)),
    List.takeWhile_cons_of_neg (by simp), List.append_nil]

theorem stringAfter?_closed {before : List Char} (h : ∀ c ∈ before, c ≠ quotation)
    (after : List Char) :
    stringAfter? (quotation :: (before ++ quotation :: after)) =
      some (quotation :: before ++ [quotation]).length := by
  rw [stringAfter?, if_pos ⟨rfl, by simp⟩, takeWhile_quotation h]
  simp

theorem stringAfter?_of_ne {text : List Char} (h : ∀ c ∈ text.head?, c ≠ quotation) :
    stringAfter? text = none := by
  cases text with
  | nil => rfl
  | cons c cs => exact if_neg (fun hc => h c rfl hc.1)

/-- Before its first quotation mark an encoded string has none. -/
theorem flatMap_escape_ne {s : List Char} (h : ¬ quotation ∈ s) :
    ∀ c ∈ s.flatMap E.escape, c ≠ quotation := by
  intro c hc heq
  obtain ⟨d, hd, hin⟩ := List.mem_flatMap.mp hc
  exact E.no_quotation d (fun hq => h (hq ▸ hd)) (heq ▸ hin)

/-- A value that is no string does not begin with a quotation mark. -/
theorem head_ne_of_not_str {d : Doc} (h : stringShown? E d = none) {rest : List Char}
    (hrest : Terminated rest) : ∀ c ∈ (d.text E ++ rest).head?, c ≠ quotation := by
  have hnone : ∀ c ∈ rest.head?, c ≠ quotation := by
    intro c hc
    rcases hrest c hc with rfl | rfl | rfl <;> decide
  cases d with
  | scalar x =>
      rw [Doc.text]
      cases htext : x.text with
      | nil => exact hnone
      | cons c cs =>
          intro d hd
          rw [List.cons_append, List.head?_cons, Option.mem_some_iff] at hd
          rw [← hd]
          exact (x.plain c (by rw [htext]; exact List.mem_cons_self)).1
  | str s => cases h
  | arr items =>
      intro c hc
      rw [← Option.some.inj hc]
      decide
  | obj ms =>
      intro c hc
      rw [← Option.some.inj hc]
      decide

theorem stringText_of_not_mem {s : List Char} (h : ¬ quotation ∈ s) :
    stringText E s = s.flatMap E.escape := by
  rw [stringText, List.takeWhile_eq_self_iff]
  exact fun c hc => decide_eq_true (flatMap_escape_ne h c hc)

/-- What is left of a string behind its first quotation mark. -/
theorem stringAfter_left (hname : Searchable name) (s : List Char) :
    ∃ left, E.quoted s = quotation :: stringText E s ++ [quotation] ++ left ∧
      ∀ rest, Terminated rest →
        stringAfter? (E.quoted s ++ rest) =
            some (quotation :: stringText E s ++ [quotation]).length ∧
          scan (memberAt name stringAfter?) 0 (left ++ rest) =
            scan (memberAt name stringAfter?) 0 rest := by
  by_cases hs : quotation ∈ s
  · -- The first quotation mark of the text is the one behind a backslash.
    obtain ⟨before, after, rfl, hout⟩ := List.eq_append_cons_of_mem hs
    have hplain : ∀ c ∈ before.flatMap E.escape ++ ['\\'], c ≠ quotation := by
      rw [List.forall_mem_append]
      exact ⟨flatMap_escape_ne hout, List.forall_mem_singleton.mpr (by decide)⟩
    have hsplit : (before ++ quotation :: after).flatMap E.escape =
        (before.flatMap E.escape ++ ['\\']) ++ quotation :: after.flatMap E.escape := by
      rw [List.flatMap_append, List.flatMap_cons, E.escape_quotation]
      simp
    rw [stringText, hsplit, takeWhile_quotation hplain]
    refine ⟨after.flatMap E.escape ++ [quotation], ?_, fun rest hrest => ⟨?_, ?_⟩⟩
    · rw [Encoding.quoted, hsplit]
      simp
    · rw [quoted_append, hsplit, List.append_assoc, List.cons_append]
      exact stringAfter?_closed hplain _
    · rw [List.append_assoc]
      exact scan_inside hname hrest after
  · rw [stringText_of_not_mem hs]
    refine ⟨[], by rw [List.append_nil, Encoding.quoted], fun rest hrest => ⟨?_, rfl⟩⟩
    rw [quoted_append]
    exact stringAfter?_closed (flatMap_escape_ne hs) rest

theorem length_le_flatMap_escape (s : List Char) : s.length ≤ (s.flatMap E.escape).length := by
  induction s with
  | nil => exact Nat.le_refl 0
  | cons c s ih =>
      have hpos : 1 ≤ (E.escape c).length := by
        rcases E.kept_or_escaped c with h | ⟨d, cs, h⟩ <;> rw [h] <;> simp
      rw [List.flatMap_cons, List.length_append, List.length_cons]
      omega

theorem flatMap_escape_eq_self_iff {s : List Char} :
    s.flatMap E.escape = s ↔ ∀ c ∈ s, E.escape c = [c] := by
  refine ⟨fun h => ?_, E.flatMap_escape_of_kept⟩
  induction s with
  | nil => exact List.forall_mem_nil _
  | cons c s ih =>
      rw [List.flatMap_cons] at h
      rcases E.kept_or_escaped c with hkept | ⟨d, cs, hescaped⟩
      · rw [hkept, List.singleton_append, List.cons.injEq] at h
        exact List.forall_mem_cons.mpr ⟨hkept, ih h.2⟩
      · -- An escape is longer than its character.
        have hlength := congrArg List.length h
        have hle := length_le_flatMap_escape (E := E) s
        rw [hescaped] at hlength
        simp only [List.length_append, List.length_cons] at hlength
        omega

/-- A string is printed as it is exactly when nothing in it is escaped. -/
theorem stringText_eq_self_iff {s : List Char} :
    stringText E s = s ↔ ∀ c ∈ s, E.escape c = [c] := by
  by_cases hs : quotation ∈ s
  · refine iff_of_false (fun h => ?_) (fun h => ?_)
    · rw [← h] at hs
      simpa using List.mem_takeWhile_imp hs
    · have hkept := h quotation hs
      rw [E.escape_quotation] at hkept
      exact absurd (congrArg List.length hkept) (by decide)
  · rw [stringText_of_not_mem hs]
    exact flatMap_escape_eq_self_iff

theorem stringAfter_reads (hname : Searchable name) (d : Doc) :
    Reads E name stringAfter? (stringShown? E) d where
  none := fun h rest hrest => stringAfter?_of_ne (head_ne_of_not_str h hrest)
  some := by
    intro shown hshown
    cases d with
    | str s =>
        obtain ⟨left, htext, hleft⟩ := stringAfter_left (E := E) hname s
        rw [← Option.some.inj hshown]
        refine ⟨left, htext, fun rest hrest => ?_⟩
        obtain ⟨hafter, hscan⟩ := hleft rest hrest
        exact ⟨hafter, hscan.trans (scan_str hname hrest s).symm⟩
    | scalar x => cases hshown
    | arr items => cases hshown
    | obj ms => cases hshown

theorem digitsAfter_reads (d : Doc) : Reads E name digitsAfter? (digitsShown? E) d where
  none := fun h => by cases h
  some := by
    intro shown hshown
    rw [← Option.some.inj hshown]
    refine ⟨(d.text E).dropWhile Char.isDigit, List.takeWhile_append_dropWhile.symm, ?_⟩
    intro rest hrest
    have hstop : rest.takeWhile Char.isDigit = [] := by
      cases rest with
      | nil => rfl
      | cons c rest =>
          apply List.takeWhile_cons_of_neg
          rcases hrest c rfl with rfl | rfl | rfl <;> decide
    refine ⟨?_, ?_⟩
    · rw [digitsAfter?, List.takeWhile_append]
      split
      · rename_i hall
        rw [hstop, List.append_nil, hall]
      · rfl
    · have hdigits : ∀ c ∈ (d.text E).takeWhile Char.isDigit, c ≠ quotation := by
        intro c hc heq
        have hdigit := List.mem_takeWhile_imp hc
        rw [heq] at hdigit
        exact absurd hdigit (by decide)
      have hsplit : d.text E ++ rest = (d.text E).takeWhile Char.isDigit ++
          ((d.text E).dropWhile Char.isDigit ++ rest) := by
        rw [← List.append_assoc, List.takeWhile_append_dropWhile]
      rw [hsplit, scan_plain hdigits]

end Readers

end PaymentConnector.Library.JsonText
