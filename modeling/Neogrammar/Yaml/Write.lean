import Neogrammar.Yaml.ScalarValue
import Neogrammar.Number.Shortest

/-!
# Writing YAML

Collections are written as blocks, two columns deeper than what holds them, and empty ones in
brackets. A text is plain if it reads back as that text, else in single quotes, and in double quotes
if it holds what only escapes can show. Lines are folded at a space after 80 columns.
-/
namespace Neogrammar.Yaml

/-- What was written, and where that leaves the pen: its column, whether blank space is before it,
and whether only indentation is before it on the line. -/
structure Pen where
  reversed : List Char
  column : Nat
  afterBlank : Bool
  indented : Bool
  deriving Repr

namespace Pen

/-- The start of a text. -/
def start : Pen := ⟨[], 0, true, true⟩

def text (p : Pen) : String := String.ofList p.reversed.reverse

/-- Write characters of one line. -/
def write (p : Pen) (s : List Char) : Pen :=
  { p with reversed := s.reverse ++ p.reversed, column := p.column + s.length }

/-- End the line by a given break. -/
def breakLine (p : Pen) (c : Char) : Pen := ⟨c :: p.reversed, 0, true, true⟩

/-- Go to a column, on a new line where the pen is past it or something is before it. -/
def indentTo (p : Pen) (column : Nat) : Pen :=
  let p :=
    if !p.indented || column < p.column || (p.column == column && !p.afterBlank)
      then p.breakLine '\n'
    else p
  if p.column < column then { p.write (List.replicate (column - p.column) ' ')
      with afterBlank := true }
  else p

/-- Write a sign, set off by a space where `apart` is set. A sign that opens an indented item leaves
the line indented. -/
def sign (p : Pen) (s : List Char) (apart opensItem : Bool) : Pen :=
  let p := p.write (if p.afterBlank || !apart then s else ' ' :: s)
  { p with afterBlank := false, indented := p.indented && opensItem }

/-- Go to a column within a text. -/
def foldTo (p : Pen) (column : Nat) : Pen :=
  { p.indentTo column with afterBlank := false, indented := false }

end Pen

/-- The column after which lines are folded. -/
def lineWidth : Nat := 80

/-! ## Styles of texts -/

/-- The breaks that a written text keeps. -/
def isLineEnd (c : Char) : Bool := c == '\n' || c == '\x85' || c == '\u2028' || c == '\u2029'

/-- Characters that need an escape. -/
def isSpecial (c : Char) : Bool :=
  let n := c.toNat
  !(c == '\n' || (0x20 ≤ n && n ≤ 0x7E) || n == 0x85
    || (((0xA0 ≤ n && n ≤ 0xD7FF) || (0xE000 ≤ n && n ≤ 0xFFFD) || (0x10000 ≤ n && n < 0x10FFFF))
      && n != 0xFEFF))

/-- Blanks, breaks and the end of the text set signs apart. -/
def setsApart : Option Char → Bool
  | none => true
  | some c => c == '\x00' || c == ' ' || c == '\t' || c == '\r' || isLineEnd c

/-- Whether a first character would be read as a sign. -/
def opensSign (c : Char) (next : Option Char) : Bool :=
  "#,[]\x7b\x7d&*!|>'\"%@\x60".toList.contains c
    || ((c == '?' || c == ':' || c == '-') && setsApart next)

/-- Whether a colon or number sign after a character would be read as a sign. -/
def holdsSign : Char → List Char → Bool
  | _, [] => false
  | before, c :: rest =>
    (c == ':' && setsApart rest.head?) || (c == '#' && setsApart (some before)) || holdsSign c rest

/-- Whether a text could be read as signs or as a mark between documents. -/
def looksLikeSign (s : List Char) : Bool :=
  "---".toList.isPrefixOf s || "...".toList.isPrefixOf s || match s with
    | [] => false
    | c :: rest => opensSign c rest.head? || holdsSign c rest

/-- Whether two neighbours of a text satisfy `p` and `q`. -/
def hasPair (p q : Char → Bool) : List Char → Bool
  | a :: b :: rest => (p a && q b) || hasPair p q (b :: rest)
  | _ => false

/-- A text of which single quotes would lose something. -/
def needsEscapes (s : List Char) : Bool :=
  s.any isSpecial || hasPair isLineEnd isSpace s || hasPair isSpace isLineEnd s

def isPlain (s : List Char) : Bool :=
  kindOf s == .text && !s.any isLineEnd && !needsEscapes s && !looksLikeSign s
    && s.head? != some ' ' && s.getLast? != some ' '

inductive Style where
  | plain
  | single
  | double
  deriving DecidableEq, Repr

/-- The style of a text; a key must stand on one line. -/
def styleOf (isKey : Bool) (s : List Char) : Style :=
  if isPlain s then .plain
  else if needsEscapes s || (isKey && s.any isLineEnd) then .double
  else .single

/-! ## Texts -/

/-- Cut a text into runs of spaces, runs of breaks, single quotes, and all else. -/
inductive Piece where
  | spaces (count : Nat)
  | breaks (s : List Char)
  | quote
  | word (s : List Char)
  deriving DecidableEq, Repr

/-- Put a character before the first piece or join it to that. -/
def addPiece (c : Char) : List Piece → List Piece
  | .spaces n :: rest =>
    if c == ' ' then .spaces (n + 1) :: rest
    else addFresh c (.spaces n :: rest)
  | .breaks s :: rest =>
    if isLineEnd c then .breaks (c :: s) :: rest else addFresh c (.breaks s :: rest)
  | .word s :: rest =>
    if c == ' ' || isLineEnd c || c == '\'' then addFresh c (.word s :: rest)
    else .word (c :: s) :: rest
  | rest => addFresh c rest
where
  addFresh (c : Char) (rest : List Piece) : List Piece :=
    (if c == ' ' then .spaces 1 else if isLineEnd c then .breaks [c]
      else if c == '\'' then .quote else .word [c]) :: rest

def pieces (s : List Char) : List Piece := s.foldr addPiece []

/-- Write breaks; the first line feed is written twice, as one is taken by folding. -/
def writeBreaks (p : Pen) (s : List Char) : Pen :=
  let p := if s.head? == some '\n' then p.breakLine '\n' else p
  s.foldl Pen.breakLine p

/-- Write one piece of a plain text. -/
def writePlainPiece (column : Nat) (mayFold : Bool) (p : Pen) : Piece → Pen
  | .spaces n =>
    if n == 1 && lineWidth < p.column && mayFold then p.foldTo column
    else p.write (List.replicate n ' ')
  | .breaks s => (writeBreaks p s).foldTo column
  | .quote => p.write ['\'']
  | .word s => p.write s

def writePlain (column : Nat) (mayFold : Bool) (p : Pen) (s : List Char) : Pen :=
  let p := if p.afterBlank || s.isEmpty then p else p.write [' ']
  (pieces s).foldl (writePlainPiece column mayFold)
    { p with afterBlank := false, indented := false }

/-- Write pieces between single quotes; a space at either end of the text is not folded. -/
def writeSinglePieces (column : Nat) (mayFold : Bool) : Bool → Pen → List Piece → Pen
  | _, p, [] => p
  | first, p, .spaces n :: rest =>
    let p :=
      if n == 1 && lineWidth < p.column && mayFold && !first && !rest.isEmpty then p.indentTo column
      else p.write (List.replicate n ' ')
    writeSinglePieces column mayFold false p rest
  | _, p, .breaks s :: rest =>
    writeSinglePieces column mayFold false ((writeBreaks p s).indentTo column) rest
  | _, p, .quote :: rest => writeSinglePieces column mayFold false (p.write ['\'', '\'']) rest
  | _, p, .word s :: rest => writeSinglePieces column mayFold false (p.write s) rest

def writeSingle (column : Nat) (mayFold : Bool) (p : Pen) (s : List Char) : Pen :=
  let p := writeSinglePieces column mayFold true (p.sign ['\''] true false) (pieces s)
  p.sign ['\''] false false

/-- Characters that stand for themselves between double quotes. -/
def isBare (c : Char) : Bool :=
  let n := c.toNat
  c != '"' && c != '\\' && n != 0xFEFF && c != '\u2028' && c != '\u2029'
    && ((0x20 ≤ n && n ≤ 0x7E) || (0xA0 ≤ n && n ≤ 0xD7FF) || (0xE000 ≤ n && n ≤ 0xFFFD))

def shortEscape? : Char → Option Char
  | '\x00' => some '0'
  | '\x07' => some 'a'
  | '\x08' => some 'b'
  | '\t' => some 't'
  | '\n' => some 'n'
  | '\x0b' => some 'v'
  | '\x0c' => some 'f'
  | '\r' => some 'r'
  | '\x1b' => some 'e'
  | '"' => some '"'
  | '\\' => some '\\'
  | '\x85' => some 'N'
  | '\xa0' => some '_'
  | '\u2028' => some 'L'
  | '\u2029' => some 'P'
  | _ => none

/-- An escape: a letter, or as many capital hexadecimal digits as the code needs. -/
def escape (c : Char) : List Char :=
  match shortEscape? c with
  | some e => ['\\', e]
  | none =>
    let n := c.toNat
    let (letter, width) := if n ≤ 0xFF then ('x', 2) else if n ≤ 0xFFFF then ('u', 4) else ('U', 8)
    '\\' :: letter :: raised (Text.hexDigits width n)

/-- Fold a line between double quotes; a space that comes next is kept by a backslash. -/
def foldDouble (column : Nat) (p : Pen) (next : Option Char) : Pen :=
  let p := (p.write ['\\']).foldTo column
  if next == some ' ' then p.write ['\\'] else p

/-- Write characters between double quotes. `pending` holds bare characters that are not written
yet, the last first; `inside` says that the next character is not the first. -/
def writeDoubleChars (column : Nat) (mayFold : Bool) : Bool → List Char → Pen → List Char → Pen
  | _, pending, p, [] => p.write pending.reverse
  | inside, pending, p, c :: rest =>
    let mayFoldHere := mayFold && inside && !rest.isEmpty
    if isBare c then
      if mayFoldHere && (c == ' ' || pending.isEmpty) && lineWidth < p.column + pending.length then
        writeDoubleChars column mayFold true [c]
          (foldDouble column (p.write pending.reverse) (some c)) rest
      else writeDoubleChars column mayFold true (c :: pending) p rest
    else
      let p := (p.write pending.reverse).write (escape c)
      let p := if mayFoldHere && lineWidth + 1 < p.column then foldDouble column p rest.head? else p
      writeDoubleChars column mayFold true [] p rest

def writeDouble (column : Nat) (mayFold : Bool) (p : Pen) (s : List Char) : Pen :=
  (writeDoubleChars column mayFold false [] (p.sign ['"'] true false) s).sign ['"'] false false

def writeText (column : Nat) (isKey : Bool) (p : Pen) (s : List Char) : Pen :=
  match styleOf isKey s with
  | .plain => writePlain column (!isKey) p s
  | .single => writeSingle column (!isKey) p s
  | .double => writeDouble column (!isKey) p s

/-! ## Values -/

/-- A fraction; an exponent has a point before it. -/
def realText : Double → List Char
  | .nan => ".nan".toList
  | .infinite false => ".inf".toList
  | .infinite true => "-.inf".toList
  | x =>
    let s := x.text.toList
    if s.contains '.' then s else s.flatMap fun c => if c == 'e' then ".0e".toList else [c]

/-- The text and the tag of a scalar that is no text. -/
def scalarForm? : Datum → Option (List Char × String)
  | .null => some ("null".toList, "!!null")
  | .bool true => some ("true".toList, "!!bool")
  | .bool false => some ("false".toList, "!!bool")
  | .int n => some ((Text.intText n).toList, "!!int")
  | .real x => some (realText x, "!!float")
  | .time t => some ((t.text ' ').toList, "!!timestamp")
  | _ => none

/-- Whether a key stands before its colon on one line: it is short, not empty and has no break. -/
def isSimpleKey : Datum → Bool
  | .text s => s.length + 5 < 128 && !s.isEmpty && !s.toList.any isLineEnd
  | .list xs => xs.isEmpty
  | .map es => es.isEmpty
  | d =>
    match scalarForm? d with
    | some (s, tag) => s.length + tag.length < 128
    | none => false

/-- Write a pair of brackets with nothing between them. -/
def writeEmpty (p : Pen) (opening closing : Char) : Pen :=
  (p.sign [opening] true false).sign [closing] false false

/-- Write a scalar; folded lines go two columns deeper. -/
def writeScalar (column : Nat) (isKey : Bool) (p : Pen) (d : Datum) : Pen :=
  match d, scalarForm? d with
  | .text s, _ => writeText (column + 2) isKey p s.toList
  | _, some (s, _) => writePlain (column + 2) (!isKey) p s
  | .list _, none => writeEmpty p '[' ']'
  | _, none => writeEmpty p '\x7b' '\x7d'

mutual

/-- Write a value within a block at a column. The items of a sequence that is the value of a simple
key stay at that column. -/
def writeValue (column : Nat) (inMapping : Bool) (p : Pen) : Datum → Pen
  | .list (x :: xs) => writeItems (if inMapping && !p.indented then column else column + 2)
      p (x :: xs)
  | .map (e :: es) => writeEntries (column + 2) p (e :: es)
  | d => writeScalar column false p d

/-- Write the items of a sequence at a column. -/
def writeItems (column : Nat) (p : Pen) : List Datum → Pen
  | [] => p
  | x :: xs =>
    writeItems column (writeValue column false ((p.indentTo column).sign ['-'] true true) x) xs

/-- Write the entries of a mapping at a column. A key that does not stand on one line gets a sign of
its own. -/
def writeEntries (column : Nat) (p : Pen) : List (Datum × Datum) → Pen
  | [] => p
  | (k, v) :: es =>
    let p := p.indentTo column
    let p :=
      if isSimpleKey k then (writeScalar column true p k).sign [':'] false false
      else
        let p := writeValue column true (p.sign ['?'] true true) k
        (p.indentTo column).sign [':'] true true
    writeEntries column (writeValue column true p v) es

end

/-- The text of a map. -/
def write (entries : List (Datum × Datum)) : String :=
  let p := if entries.isEmpty then writeEmpty .start '\x7b' '\x7d'
    else writeEntries 0 .start entries
  (p.indentTo 0).text

end Neogrammar.Yaml
