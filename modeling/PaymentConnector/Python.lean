import Mathlib.Data.List.DropRight
import Mathlib.Data.Rat.Floor

/-!
# The Python values the service computes with

Vault payloads and gateway bodies reach the code as whatever `json.loads`
returns, so the code's `.get`, `int(...)` and `dict(...)` are modelled on that
type, with the exceptions they raise.

A string holding an unpaired surrogate (which JSON can spell and no `String`
can hold) has a constructor of its own.  Floats are exact rationals with the
three values that are not rational; their sums and differences are exact, and
what is rounded is the conversion of an integer (`pyFloat`).
-/

namespace PaymentConnector

/-- A Python `float`. -/
inductive PyFloat
  | finite (q : Rat)
  | infinite (negative : Bool)
  | nan

/-- A value as `json.loads` returns it.  The pairs of an object are in source
order; a repeated key counts with its last value. -/
inductive Json
  | null
  | bool (b : Bool)
  | int (n : Int)
  | float (x : PyFloat)
  | str (s : String)
  | surrogates (codes : List Nat)
  | arr (xs : List Json)
  | obj (kvs : List (String × Json))

/-- Exceptions of the interpreter and its libraries, with `str(exc)`. -/
inductive PyExc
  | typeError (text : String)
  | valueError (text : String)
  | overflowError (text : String)
  | attributeError (text : String)
  | validationError (text : String)
  | other (text : String)
  deriving DecidableEq

/-- `str(exc)`. -/
def PyExc.str : PyExc → String
  | typeError t | valueError t | overflowError t | attributeError t
  | validationError t | other t => t

namespace Json

/-- `type(x).__name__`. -/
def typeName : Json → String
  | null => "NoneType"
  | bool _ => "bool"
  | int _ => "int"
  | float _ => "float"
  | str _ | surrogates _ => "str"
  | arr _ => "list"
  | obj _ => "dict"

/-- `bool(x)`. -/
def truthy : Json → Bool
  | null => false
  | bool b => b
  | int n => n ≠ 0
  | float (.finite q) => q ≠ 0
  | float _ => true
  | str s => s ≠ ""
  | surrogates codes => codes ≠ []
  | arr xs => !xs.isEmpty
  | obj kvs => !kvs.isEmpty

/-- Dictionary keys must be hashable. -/
def hashable : Json → Bool
  | arr _ | obj _ => false
  | _ => true

end Json

/-! ## `dict(...)` and `.get(...)` -/

/-- A Python dictionary as the pairs written into it, oldest first. -/
abbrev PyDict := List (Json × Json)

/-- Whether a key is the given string. -/
def isKey (key : String) : Json → Bool
  | .str s => s = key
  | _ => false

theorem isKey_iff {key : String} {k : Json} : isKey key k = true ↔ k = .str key := by
  unfold isKey
  split
  · simp
  · rename_i hother
    simp only [Bool.false_eq_true, false_iff]
    exact fun h => hother key h

/-- The value last written under a string key. -/
def PyDict.find? (d : PyDict) (key : String) : Option Json :=
  (d.reverse.find? (fun e => isKey key e.1)).map Prod.snd

/-- `d.get(key, default)`. -/
def PyDict.get (d : PyDict) (key : String) (default : Json) : Json :=
  (d.find? key).getD default

/-- The dictionary of a JSON object. -/
def objDict (kvs : List (String × Json)) : PyDict := kvs.map (fun e => (.str e.1, e.2))

/-- The distinct keys of a JSON object, in insertion order. -/
def objKeys (kvs : List (String × Json)) : List String :=
  (kvs.map Prod.fst).reverse.dedup.reverse

/-- The key and value that `dict` reads off one element of a sequence. -/
def pyPair (index : Nat) : Json → Except PyExc (Json × Json)
  | .arr [k, v] =>
      if k.hashable then .ok (k, v)
      else .error (.typeError s!"unhashable type: '{k.typeName}'")
  | .obj kvs =>
      match objKeys kvs with
      | [k, v] => .ok (.str k, .str v)
      | ks => .error (badLength ks.length)
  | .str s =>
      match s.toList with
      | [k, v] => .ok (.str (String.singleton k), .str (String.singleton v))
      | cs => .error (badLength cs.length)
  | .surrogates [k, v] => .ok (.surrogates [k], .surrogates [v])
  | .surrogates codes => .error (badLength codes.length)
  | .arr xs => .error (badLength xs.length)
  | _ => .error (.typeError
      s!"cannot convert dictionary update sequence element #{index} to a sequence")
where
  badLength (n : Nat) : PyExc := .valueError
    s!"dictionary update sequence element #{index} has length {n}; 2 is required"

/-- The pairs `dict` reads off a sequence, from element `index` on. -/
def pyPairs : Nat → List Json → Except PyExc PyDict
  | _, [] => .ok []
  | index, x :: xs =>
      match pyPair index x with
      | .error exc => .error exc
      | .ok pair =>
          match pyPairs (index + 1) xs with
          | .error exc => .error exc
          | .ok pairs => .ok (pair :: pairs)

/-- `dict(x)`. -/
def pyDict : Json → Except PyExc PyDict
  | .obj kvs => .ok (objDict kvs)
  | .arr xs => pyPairs 0 xs
  | .str s => pyPairs 0 (s.toList.map (fun c => .str (String.singleton c)))
  | .surrogates codes => pyPairs 0 (codes.map (fun c => .surrogates [c]))
  | x => .error (.typeError s!"'{x.typeName}' object is not iterable")

/-! ## `strip` and `int(...)` -/

/-- The white space that `str.strip` takes off both ends of a string. -/
def isSpace (c : Char) : Bool :=
  c.toNat ∈ [9, 10, 11, 12, 13, 28, 29, 30, 31, 32, 133, 160, 5760, 8192, 8193, 8194, 8195,
    8196, 8197, 8198, 8199, 8200, 8201, 8202, 8232, 8233, 8239, 8287, 12288]

/-- The white space that `int` skips: not the four ASCII separators. -/
def isIntSpace (c : Char) : Bool := isSpace c && !(28 ≤ c.toNat && c.toNat ≤ 31)

/-- What is left between the ends for which `p` holds. -/
def stripBy (p : Char → Bool) (cs : List Char) : List Char :=
  ((cs.dropWhile p).reverse.dropWhile p).reverse

/-- `s.strip()`, on the characters. -/
def strip (cs : List Char) : List Char := stripBy isSpace cs

/-- Stripping leaves nothing to strip. -/
theorem strip_strip (cs : List Char) : strip (strip cs) = strip cs := by
  have hfirst : (strip cs).dropWhile isSpace = strip cs := by
    rw [List.dropWhile_eq_self_iff]
    intro hlen
    have hprefix : strip cs <+: cs.dropWhile isSpace := List.rdropWhile_prefix isSpace _
    have hpos : 0 < (cs.dropWhile isSpace).length := by
      have hle := hprefix.length_le
      omega
    have hsame : (strip cs)[0] = (cs.dropWhile isSpace)[0] := hprefix.getElem hlen
    rw [hsame]
    exact List.dropWhile_get_zero_not isSpace cs hpos
  show (((strip cs).dropWhile isSpace).reverse.dropWhile isSpace).reverse = strip cs
  rw [hfirst]
  exact List.rdropWhile_idempotent isSpace (cs.dropWhile isSpace)

/-- There is nothing to strip where there is no white space. -/
theorem strip_of_no_space {cs : List Char} (h : ∀ c ∈ cs, isSpace c = false) :
    strip cs = cs := by
  have hfirst : cs.dropWhile isSpace = cs := by
    rw [List.dropWhile_eq_self_iff]
    intro hlen
    simp [h cs[0] (List.getElem_mem hlen)]
  have hlast : cs.reverse.dropWhile isSpace = cs.reverse := by
    rw [List.dropWhile_eq_self_iff]
    intro hlen
    have hmem : cs.reverse[0] ∈ cs := List.mem_reverse.mp (List.getElem_mem hlen)
    rw [h _ hmem]
    exact Bool.false_ne_true
  rw [strip, stripBy, hfirst, hlast, List.reverse_reverse]

/-- The zeros of the decimal digits; the nine digits after each are its own. -/
def decimalZeros : List Nat :=
  [48, 1632, 1776, 1984, 2406, 2534, 2662, 2790, 2918, 3046, 3174, 3302, 3430, 3558, 3664, 3792,
    3872, 4160, 4240, 6112, 6160, 6470, 6608, 6784, 6800, 6992, 7088, 7232, 7248, 42528, 43216,
    43264, 43472, 43504, 43600, 44016, 65296, 66720, 68912, 69734, 69872, 69942, 70096, 70384,
    70736, 70864, 71248, 71360, 71472, 71904, 72016, 72784, 73040, 73120, 73552, 92768, 92864,
    93008, 120782, 120792, 120802, 120812, 120822, 123200, 123632, 124144, 125264, 130032]

/-- The value of a decimal digit of any script. -/
def decimal? (c : Char) : Option Nat :=
  (decimalZeros.find? (fun first => first ≤ c.toNat && c.toNat < first + 10)).map (c.toNat - ·)

/-- Decimal digits with single underscores between them, read after `acc`;
`ready` records that the last character was a digit. -/
def intDigits (acc : Nat) (ready : Bool) : List Char → Option Nat
  | [] => if ready then some acc else none
  | c :: cs =>
      match decimal? c with
      | some digit => intDigits (acc * 10 + digit) true cs
      | none => if c = '_' && ready then intDigits acc false cs else none

/-- An optional sign and the digits. -/
def intLiteral : List Char → Option Int
  | '-' :: cs => (intDigits 0 false cs).map (fun n => -(n : Int))
  | '+' :: cs => (intDigits 0 false cs).map (fun n => (n : Int))
  | cs => (intDigits 0 false cs).map (fun n => (n : Int))

/-- The longest decimal literal that `int` converts. -/
def maxStrDigits : Nat := 4300

/-- `int(s)` for a string. -/
def intOfStr (s : String) : Except PyExc Int :=
  let cs := stripBy isIntSpace s.toList
  match intLiteral cs with
  | none => .error (.valueError s!"invalid literal for int() with base 10: '{s}'")
  | some n =>
      if maxStrDigits < (cs.filterMap decimal?).length then
        .error (.valueError "Exceeds the limit (4300 digits) for integer string conversion")
      else .ok n

/-- `int(q)` for a rational: truncation towards zero. -/
def truncate (q : Rat) : Int := q.num.tdiv q.den

/-- `round(q, digits)`, half to even. -/
def pyRound (q : Rat) (digits : Nat) : Rat :=
  let scaled := q * 10 ^ digits
  let low := scaled.floor
  let rest := scaled - low
  let nearest : Int :=
    if rest < 1 / 2 then low
    else if 1 / 2 < rest then low + 1
    else if low % 2 = 0 then low
    else low + 1
  nearest / 10 ^ digits

/-- `int(x)`. -/
def pyInt : Json → Except PyExc Int
  | .int n => .ok n
  | .bool b => .ok (if b then 1 else 0)
  | .float (.finite q) => .ok (truncate q)
  | .float (.infinite _) => .error (.overflowError "cannot convert float infinity to integer")
  | .float .nan => .error (.valueError "cannot convert float NaN to integer")
  | .str s => intOfStr s
  | .surrogates _ => .error (.valueError "invalid literal for int() with base 10")
  | x => .error (.typeError
      s!"int() argument must be a string, a bytes-like object or a real number, not '{x.typeName}'")

example : intOfStr " -1_000\n" = .ok (-1000) := by rfl

/-! ## `float(n)` -/

/-- The least magnitude that rounds to no float, 2 ^ 1024 - 2 ^ 970: half a unit in the
last place above the largest one. -/
def floatBound : Nat := (2 ^ 128) ^ 8 - (2 ^ 97) ^ 10

/-- The multiple of `unit` nearest to `n`, in units, half to even. -/
def nearestMultiple (n unit : Nat) : Nat :=
  let low := n / unit
  let rest := n % unit
  if 2 * rest < unit then low
  else if unit < 2 * rest then low + 1
  else if low % 2 = 0 then low
  else low + 1

/-- An integer rounded to the 53 significant bits of a float. -/
def roundToFloat (n : Int) : Int :=
  let unit := 2 ^ (n.natAbs.log2 - 52)
  n.sign * (nearestMultiple n.natAbs unit * unit : Nat)

/-- `float(n)`, as for `n - x` with a float `x`: a float is a whole number here,
or the conversion raises. -/
def pyFloat (n : Int) : Except PyExc Int :=
  if floatBound ≤ n.natAbs then .error (.overflowError "int too large to convert to float")
  else .ok (roundToFloat n)

theorem pyFloat_of_lt {n : Int} (h : n.natAbs < floatBound) : pyFloat n = .ok (roundToFloat n) :=
  if_neg (Nat.not_le.mpr h)

theorem pyFloat_of_le {n : Int} (h : floatBound ≤ n.natAbs) :
    pyFloat n = .error (.overflowError "int too large to convert to float") :=
  if_pos h

theorem pyFloat_ok_iff {n x : Int} :
    pyFloat n = .ok x ↔ n.natAbs < floatBound ∧ roundToFloat n = x := by
  unfold pyFloat
  split
  · rename_i hle
    simp only [reduceCtorEq, false_iff, not_and]
    intro hlt
    omega
  · rename_i hlt
    rw [Except.ok.injEq]
    exact ⟨fun h => ⟨by omega, h⟩, fun h => h.2⟩

example : pyFloat (2 ^ 53 + 1) = .ok (2 ^ 53) := by decide +kernel

/-! ## Rendering a payload -/

mutual

/-- Whether a value can be rendered as a response: `json.dumps` refuses a float that
is no number, and UTF-8 an unpaired surrogate. -/
def renders : Json → Bool
  | .null | .bool _ | .int _ | .str _ | .float (.finite _) => true
  | .float (.infinite _) | .float .nan | .surrogates _ => false
  | .arr xs => rendersAll xs
  | .obj kvs => rendersFields kvs

def rendersAll : List Json → Bool
  | [] => true
  | x :: xs => renders x && rendersAll xs

def rendersFields : List (String × Json) → Bool
  | [] => true
  | (_, x) :: kvs => renders x && rendersFields kvs

end

/-! ## Reading a payload -/

/-- `x.get(key, default)` on a value that may not be a dictionary. -/
def jsonGet (x : Json) (key : String) (default : Json) : Except PyExc Json :=
  match x with
  | .obj kvs => .ok ((objDict kvs).get key default)
  | x => .error (.attributeError s!"'{x.typeName}' object has no attribute 'get'")

end PaymentConnector
