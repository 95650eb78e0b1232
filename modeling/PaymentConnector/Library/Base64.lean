import Mathlib.Data.List.DropRight

/-!
# Base64

The encoding of bytes by four characters for every three, its strict decoder, and the
wrapping of the characters in lines of a fixed width, each of them ended by a line break.

## Main results

* `decode?_encode` — decoding inverts encoding.
* `length_encode` — four characters for every three bytes.
* `wrap_of_le`, `wrap_of_lt` — what fits in one line, and what does not.
-/

namespace PaymentConnector.Library.Base64

/-! ## The alphabet -/

/-- The character of a six-bit value. -/
def symbol (n : Nat) : Char :=
  if n < 26 then Char.ofNat (65 + n)
  else if n < 52 then Char.ofNat (71 + n)
  else if n < 62 then Char.ofNat (n - 4)
  else if n = 62 then '+'
  else '/'

/-- The six-bit value of a character. -/
def value? (c : Char) : Option Nat :=
  if 65 ≤ c.toNat ∧ c.toNat ≤ 90 then some (c.toNat - 65)
  else if 97 ≤ c.toNat ∧ c.toNat ≤ 122 then some (c.toNat - 71)
  else if 48 ≤ c.toNat ∧ c.toNat ≤ 57 then some (c.toNat + 4)
  else if c = '+' then some 62
  else if c = '/' then some 63
  else none

theorem value?_symbol {n : Nat} (h : n < 64) : value? (symbol n) = some n := by
  have hall : ∀ n, n < 64 → value? (symbol n) = some n := by decide
  exact hall n h

/-- No character of the alphabet is the padding or a line break. -/
theorem symbol_ne {n : Nat} (h : n < 64) : symbol n ≠ '=' ∧ symbol n ≠ '\n' := by
  have hall : ∀ n, n < 64 → symbol n ≠ '=' ∧ symbol n ≠ '\n' := by decide
  exact hall n h

/-! ## Encoding and decoding -/

def encode : List UInt8 → List Char
  | [] => []
  | [a] => [symbol (a.toNat / 4), symbol (a.toNat % 4 * 16), '=', '=']
  | [a, b] =>
      [symbol (a.toNat / 4), symbol (a.toNat % 4 * 16 + b.toNat / 16),
        symbol (b.toNat % 16 * 4), '=']
  | a :: b :: c :: rest =>
      symbol (a.toNat / 4) :: symbol (a.toNat % 4 * 16 + b.toNat / 16) ::
        symbol (b.toNat % 16 * 4 + c.toNat / 64) :: symbol (c.toNat % 64) :: encode rest

/-- Decoding: padding stands at the end alone, and the bits before it are zero. -/
def decode? : List Char → Option (List UInt8)
  | [] => some []
  | w :: x :: y :: z :: rest =>
      match value? w, value? x, value? y, value? z with
      | some p, some q, some r, some s =>
          (decode? rest).map fun bytes =>
            UInt8.ofNat (p * 4 + q / 16) :: UInt8.ofNat (q % 16 * 16 + r / 4) ::
              UInt8.ofNat (r % 4 * 64 + s) :: bytes
      | some p, some q, some r, none =>
          if z = '=' ∧ rest = [] ∧ r % 4 = 0 then
            some [UInt8.ofNat (p * 4 + q / 16), UInt8.ofNat (q % 16 * 16 + r / 4)]
          else none
      | some p, some q, none, none =>
          if y = '=' ∧ z = '=' ∧ rest = [] ∧ q % 16 = 0 then some [UInt8.ofNat (p * 4 + q / 16)]
          else none
      | _, _, _, _ => none
  | _ => none

private theorem ofNat_eq {a : UInt8} {n : Nat} (h : n = a.toNat) : UInt8.ofNat n = a := by
  rw [h, UInt8.ofNat_toNat]

/-- Decoding inverts encoding. -/
theorem decode?_encode (bytes : List UInt8) : decode? (encode bytes) = some bytes := by
  have hpad : value? '=' = none := by decide
  induction bytes using encode.induct with
  | case1 => rfl
  | case2 a =>
      have ha := a.toNat_lt
      rw [encode, decode?, value?_symbol (by omega), value?_symbol (by omega), hpad]
      have hzero : a.toNat % 4 * 16 % 16 = 0 := by omega
      have hfirst : UInt8.ofNat (a.toNat / 4 * 4 + a.toNat % 4 * 16 / 16) = a :=
        ofNat_eq (by omega)
      simp only [hzero, hfirst, and_self, if_true]
  | case3 a b =>
      have ha := a.toNat_lt
      have hb := b.toNat_lt
      rw [encode, decode?, value?_symbol (by omega), value?_symbol (by omega),
        value?_symbol (by omega), hpad]
      have hzero : b.toNat % 16 * 4 % 4 = 0 := by omega
      have hfirst : UInt8.ofNat (a.toNat / 4 * 4 + (a.toNat % 4 * 16 + b.toNat / 16) / 16) = a :=
        ofNat_eq (by omega)
      have hsecond : UInt8.ofNat ((a.toNat % 4 * 16 + b.toNat / 16) % 16 * 16 +
          b.toNat % 16 * 4 / 4) = b := ofNat_eq (by omega)
      simp only [hzero, hfirst, hsecond, and_self, if_true]
  | case4 a b c rest ih =>
      have ha := a.toNat_lt
      have hb := b.toNat_lt
      have hc := c.toNat_lt
      rw [encode, decode?, value?_symbol (by omega), value?_symbol (by omega),
        value?_symbol (by omega), value?_symbol (by omega), ih]
      have hfirst : UInt8.ofNat (a.toNat / 4 * 4 + (a.toNat % 4 * 16 + b.toNat / 16) / 16) = a :=
        ofNat_eq (by omega)
      have hsecond : UInt8.ofNat ((a.toNat % 4 * 16 + b.toNat / 16) % 16 * 16 +
          (b.toNat % 16 * 4 + c.toNat / 64) / 4) = b := ofNat_eq (by omega)
      have hthird : UInt8.ofNat ((b.toNat % 16 * 4 + c.toNat / 64) % 4 * 64 + c.toNat % 64) = c :=
        ofNat_eq (by omega)
      simp only [Option.map_some, hfirst, hsecond, hthird]

theorem length_encode (bytes : List UInt8) :
    (encode bytes).length = 4 * ((bytes.length + 2) / 3) := by
  induction bytes using encode.induct with
  | case1 => rfl
  | case2 a => simp only [encode, List.length_cons, List.length_nil]
  | case3 a b => simp only [encode, List.length_cons, List.length_nil]
  | case4 a b c rest ih =>
      simp only [encode, List.length_cons, ih]
      omega

/-- An encoding is a single line. -/
theorem ne_newline_of_mem_encode (bytes : List UInt8) : ∀ c ∈ encode bytes, c ≠ '\n' := by
  have hpad : '=' ≠ '\n' := by decide
  induction bytes using encode.induct with
  | case1 => exact fun c hc => absurd hc List.not_mem_nil
  | case2 a =>
      have ha := a.toNat_lt
      simp only [encode, List.forall_mem_cons]
      exact ⟨(symbol_ne (by omega)).2, (symbol_ne (by omega)).2, hpad, hpad,
        fun c hc => absurd hc List.not_mem_nil⟩
  | case3 a b =>
      have ha := a.toNat_lt
      have hb := b.toNat_lt
      simp only [encode, List.forall_mem_cons]
      exact ⟨(symbol_ne (by omega)).2, (symbol_ne (by omega)).2, (symbol_ne (by omega)).2, hpad,
        fun c hc => absurd hc List.not_mem_nil⟩
  | case4 a b c rest ih =>
      have ha := a.toNat_lt
      have hb := b.toNat_lt
      have hc := c.toNat_lt
      simp only [encode, List.forall_mem_cons]
      exact ⟨(symbol_ne (by omega)).2, (symbol_ne (by omega)).2, (symbol_ne (by omega)).2,
        (symbol_ne (by omega)).2, ih⟩

/-! ## Lines -/

/-- Break lines of `width` characters, `column` of them being written on the current one;
every line is ended. -/
def wrapFrom (width : Nat) : Nat → List Char → List Char
  | column, [] => if column = 0 then [] else ['\n']
  | column, c :: cs =>
      if column = width then '\n' :: c :: wrapFrom width 1 cs
      else c :: wrapFrom width (column + 1) cs

def wrap (width : Nat) (cs : List Char) : List Char := wrapFrom width 0 cs

theorem wrapFrom_of_le {width : Nat} (cs : List Char) :
    ∀ column, 0 < column + cs.length → column + cs.length ≤ width →
      wrapFrom width column cs = cs ++ ['\n'] := by
  induction cs with
  | nil =>
      intro column hpos _
      have hne : ¬ column = 0 := by
        rw [List.length_nil] at hpos
        omega
      rw [wrapFrom, if_neg hne]
      rfl
  | cons c cs ih =>
      intro column _ hle
      rw [List.length_cons] at hle
      have hne : ¬ column = width := by omega
      rw [wrapFrom, if_neg hne, ih (column + 1) (by omega) (by omega)]
      rfl

/-- What fits in one line is ended by the only line break. -/
theorem wrap_of_le {width : Nat} {cs : List Char} (hne : cs ≠ []) (h : cs.length ≤ width) :
    wrap width cs = cs ++ ['\n'] := by
  have hpos : 0 < cs.length := List.length_pos_iff.mpr hne
  exact wrapFrom_of_le cs 0 (by omega) (by omega)

theorem wrapFrom_of_lt {width : Nat} (cs : List Char) :
    ∀ column, column ≤ width → width < column + cs.length →
      ∃ line c rest, c ∈ cs ∧ wrapFrom width column cs = line ++ '\n' :: c :: rest := by
  induction cs with
  | nil =>
      intro column hle hlt
      rw [List.length_nil] at hlt
      omega
  | cons c cs ih =>
      intro column hle hlt
      rw [List.length_cons] at hlt
      rw [wrapFrom]
      by_cases hfull : column = width
      · rw [if_pos hfull]
        exact ⟨[], c, wrapFrom width 1 cs, List.mem_cons_self, rfl⟩
      · obtain ⟨line, d, rest, hmem, heq⟩ := ih (column + 1) (by omega) (by omega)
        rw [if_neg hfull, heq]
        exact ⟨c :: line, d, rest, List.mem_cons_of_mem c hmem, rfl⟩

/-- What does not fit in one line is broken before one of its characters. -/
theorem wrap_of_lt {width : Nat} {cs : List Char} (h : width < cs.length) :
    ∃ line c rest, c ∈ cs ∧ wrap width cs = line ++ '\n' :: c :: rest :=
  wrapFrom_of_lt cs 0 (Nat.zero_le width) (by omega)

end PaymentConnector.Library.Base64
