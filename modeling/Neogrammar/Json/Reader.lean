import Neogrammar.Datum.Basic

/-!
# Reading JSON

One value with blanks around it. `NaN`, `Infinity` and `-Infinity` are numbers. An entry that comes
twice keeps its first place and its last value. The fuel of each reader is the length of the text,
which no nesting exceeds.
-/
namespace Neogrammar.Json

/-- Why a text is not read. A numeral past the digit limit is told apart from bad notation. -/
inductive ReadError where
  | malformed
  | tooLong (digits : Nat)
  deriving DecidableEq, Repr

def isSpace (c : Char) : Bool := c == ' ' || c == '\n' || c == '\t' || c == '\r'

def skipSpace (s : List Char) : List Char := s.dropWhile isSpace

def hexValue? (c : Char) : Option Nat :=
  if '0' ≤ c ∧ c ≤ '9' then some (c.toNat - '0'.toNat)
  else if 'a' ≤ c ∧ c ≤ 'f' then some (c.toNat - 'a'.toNat + 10)
  else if 'A' ≤ c ∧ c ≤ 'F' then some (c.toNat - 'A'.toNat + 10)
  else none

/-- Four hexadecimal digits. -/
def readUnit : List Char → Option (Nat × List Char)
  | a :: b :: c :: d :: rest => do
    let a ← hexValue? a
    let b ← hexValue? b
    let c ← hexValue? c
    let d ← hexValue? d
    pure (((a * 16 + b) * 16 + c) * 16 + d, rest)
  | _ => none

def isHighUnit (n : Nat) : Bool := 0xD800 ≤ n && n ≤ 0xDBFF

def isLowUnit (n : Nat) : Bool := 0xDC00 ≤ n && n ≤ 0xDFFF

/-- A character from one unit, or from a pair where two follow each other. A half of a pair that
stands alone becomes the replacement character. -/
def readEscapedUnit (s : List Char) : Option (Char × List Char) := do
  let (n, rest) ← readUnit s
  if isHighUnit n then
    match rest with
    | '\\' :: 'u' :: more =>
      match readUnit more with
      | some (m, rest') =>
        if isLowUnit m then
          pure (Char.ofNat (0x10000 + (n - 0xD800) * 0x400 + (m - 0xDC00)), rest')
        else pure ('\ufffd', rest)
      | none => pure ('\ufffd', rest)
    | _ => pure ('\ufffd', rest)
  else if isLowUnit n then pure ('\ufffd', rest)
  else pure (Char.ofNat n, rest)

def simpleEscape? : Char → Option Char
  | '"' => some '"'
  | '\\' => some '\\'
  | '/' => some '/'
  | 'b' => some '\x08'
  | 'f' => some '\x0c'
  | 'n' => some '\n'
  | 'r' => some '\r'
  | 't' => some '\t'
  | _ => none

/-- The characters of a text up to its closing quote. -/
def readChars : Nat → List Char → Option (List Char × List Char)
  | 0, _ => none
  | _ + 1, [] => none
  | _ + 1, '"' :: rest => some ([], rest)
  | fuel + 1, '\\' :: 'u' :: rest => do
    let (c, rest) ← readEscapedUnit rest
    let (more, rest) ← readChars fuel rest
    pure (c :: more, rest)
  | fuel + 1, '\\' :: e :: rest => do
    let c ← simpleEscape? e
    let (more, rest) ← readChars fuel rest
    pure (c :: more, rest)
  | fuel + 1, c :: rest =>
    if c.toNat < 0x20 ∨ c = '\\' then none
    else do
      let (more, rest) ← readChars fuel rest
      pure (c :: more, rest)

/-- Split a numeral into sign, whole digits, fraction digits and exponent with its sign. -/
structure Numeral where
  negative : Bool
  whole : List Char
  fraction : List Char
  exponent : Option (Bool × List Char)
  rest : List Char

def readExponent (s : List Char) : Option (Bool × List Char) × List Char :=
  match s with
  | e :: tail =>
    if e == 'e' || e == 'E' then
      let (negative, body) := match tail with
        | '-' :: more => (true, more)
        | '+' :: more => (false, more)
        | more => (false, more)
      let digits := body.takeWhile Char.isDigit
      if digits.isEmpty then (none, s) else (some (negative, digits), body.drop digits.length)
    else (none, s)
  | [] => (none, s)

def readFraction (s : List Char) : List Char × List Char :=
  match s with
  | '.' :: tail =>
    let digits := tail.takeWhile Char.isDigit
    if digits.isEmpty then ([], s) else (digits, tail.drop digits.length)
  | _ => ([], s)

def readNumeral (s : List Char) : Option Numeral :=
  let (negative, body) := match s with
    | '-' :: more => (true, more)
    | more => (false, more)
  let whole := match body with
    | '0' :: _ => ['0']
    | _ => body.takeWhile Char.isDigit
  if whole.isEmpty then none
  else
    let (fraction, rest) := readFraction (body.drop whole.length)
    let (exponent, rest) := readExponent rest
    some ⟨negative, whole, fraction, exponent, rest⟩

def digitsValue (digits : List Char) : Nat :=
  Text.ofDigits 10 (digits.map fun d => d.toNat - '0'.toNat)

/-- A numeral with a fraction or exponent is a double, any other a whole number. -/
def Numeral.value (n : Numeral) : Except ReadError Datum :=
  if n.fraction.isEmpty && n.exponent.isNone then
    if n.whole.length > Text.digitLimit then .error (.tooLong n.whole.length)
    else .ok (.int (if n.negative then -(digitsValue n.whole : Int) else digitsValue n.whole))
  else
    let shift : Int := match n.exponent with
      | none => 0
      | some (true, digits) => -(min (digitsValue digits) 100000 : Nat)
      | some (false, digits) => (min (digitsValue digits) 100000 : Nat)
    .ok (.real (.ofDecimal n.negative (digitsValue (n.whole ++ n.fraction))
      (shift - n.fraction.length)))

/-- The words that stand for values. -/
def words : List (List Char × Datum) :=
  [("null".toList, .null), ("true".toList, .bool true), ("false".toList, .bool false),
    ("NaN".toList, .real .nan), ("Infinity".toList, .real (.infinite false)),
    ("-Infinity".toList, .real (.infinite true))]

/-- Join a map's entries: a later value replaces an earlier one of the same key. -/
def joinEntries (entries : List (String × Datum)) : List (Datum × Datum) :=
  entries.foldl (fun es e => Datum.put (.text e.1) e.2 es) []

mutual

/-- One value, without blanks before it. -/
def readValue : Nat → List Char → Except ReadError (Datum × List Char)
  | 0, _ => .error .malformed
  | fuel + 1, s =>
    match s with
    | '"' :: rest =>
      match readChars (rest.length + 1) rest with
      | some (chars, rest) => .ok (.text (String.ofList chars), rest)
      | none => .error .malformed
    | '[' :: rest =>
      match skipSpace rest with
      | ']' :: rest => .ok (.list [], rest)
      | rest => do
        let (items, rest) ← readItems fuel rest
        pure (.list items, rest)
    | '\x7b' :: rest =>
      match skipSpace rest with
      | '\x7d' :: rest => .ok (.map [], rest)
      | rest => do
        let (entries, rest) ← readEntries fuel rest
        pure (.map (joinEntries entries), rest)
    | s =>
      match words.find? fun w => w.1.isPrefixOf s with
      | some w => .ok (w.2, s.drop w.1.length)
      | none =>
        match readNumeral s with
        | none => .error .malformed
        | some n => do
          let v ← n.value
          pure (v, n.rest)

/-- Items up to the closing bracket; at least one. -/
def readItems : Nat → List Char → Except ReadError (List Datum × List Char)
  | 0, _ => .error .malformed
  | fuel + 1, s => do
    let (item, rest) ← readValue fuel s
    match skipSpace rest with
    | ']' :: rest => pure ([item], rest)
    | ',' :: rest => do
      let (items, rest) ← readItems fuel (skipSpace rest)
      pure (item :: items, rest)
    | _ => .error .malformed

/-- Entries up to the closing brace; at least one. -/
def readEntries : Nat → List Char → Except ReadError (List (String × Datum) × List Char)
  | 0, _ => .error .malformed
  | fuel + 1, s =>
    match s with
    | '"' :: rest =>
      match readChars (rest.length + 1) rest with
      | none => .error .malformed
      | some (key, rest) =>
        match skipSpace rest with
        | ':' :: rest => do
          let (value, rest) ← readValue fuel (skipSpace rest)
          match skipSpace rest with
          | '\x7d' :: rest => pure ([(String.ofList key, value)], rest)
          | ',' :: rest => do
            let (entries, rest) ← readEntries fuel (skipSpace rest)
            pure ((String.ofList key, value) :: entries, rest)
          | _ => .error .malformed
        | _ => .error .malformed
    | _ => .error .malformed

end

/-- Read a whole text as one value. -/
def readChars? (s : List Char) : Except ReadError Datum := do
  let (value, rest) ← readValue (s.length + 1) (skipSpace s)
  if (skipSpace rest).isEmpty then pure value else .error .malformed

def read (s : String) : Except ReadError Datum := readChars? s.toList

end Neogrammar.Json
