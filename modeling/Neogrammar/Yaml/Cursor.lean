import Neogrammar.Yaml.Fault

/-!
# Cursors

A cursor is a place in a text. Moving it forward keeps count of lines and columns. A look past the
end gives no character, which the predicates on optional characters take into account.
-/
namespace Neogrammar.Yaml

structure Cursor where
  rest : List Char
  index : Nat
  line : Nat
  column : Nat
  deriving Repr

def isBreak (c : Char) : Bool :=
  c == '\n' || c == '\r' || c == '\x85' || c == '\u2028' || c == '\u2029'

/-- The end of a line. -/
def endsLine : Option Char → Bool
  | none => true
  | some c => isBreak c

/-- A space or the end of a line. -/
def endsItem : Option Char → Bool
  | none => true
  | some c => c == ' ' || isBreak c

/-- A blank or the end of a line. -/
def endsWord : Option Char → Bool
  | none => true
  | some c => c == ' ' || c == '\t' || isBreak c

def isSpace (c : Char) : Bool := c == ' '

def isBlank (c : Char) : Bool := c == ' ' || c == '\t'

/-- The characters of names of anchors, tag handles and directives. -/
def isNamePart (c : Char) : Bool :=
  ('0' ≤ c && c ≤ '9') || ('A' ≤ c && c ≤ 'Z') || ('a' ≤ c && c ≤ 'z') || c == '-' || c == '_'

namespace Cursor

/-- The start of a text. -/
def start (text : List Char) : Cursor := ⟨text, 0, 0, 0⟩

def next? (c : Cursor) : Option Char := c.rest.head?

/-- The character `n` places further on. -/
def at? (c : Cursor) (n : Nat) : Option Char := c.rest[n]?

/-- One character forward. A break of two characters ends the line at its second one; a mark of
byte order takes no column. -/
def step (c : Cursor) : Cursor :=
  match c.rest with
  | [] => c
  | ch :: rest =>
    if isBreak ch && !(ch == '\r' && rest.head? == some '\n')
      then ⟨rest, c.index + 1, c.line + 1, 0⟩
    else if ch == '\ufeff' then ⟨rest, c.index + 1, c.line, c.column⟩
    else ⟨rest, c.index + 1, c.line, c.column + 1⟩

/-- Some characters forward. -/
def advance : Nat → Cursor → Cursor
  | 0, c => c
  | n + 1, c => advance n c.step

/-- The characters up to the first that does not satisfy `p`, and the place after them. -/
def span (p : Char → Bool) (c : Cursor) : List Char × Cursor :=
  let s := c.rest.takeWhile p
  (s, c.advance s.length)

/-- The place of the first character that does not satisfy `p`. -/
def skip (p : Char → Bool) (c : Cursor) : Cursor := (c.span p).2

/-- Take a break, if there is one. All breaks count as a line feed, but for the separators of lines
and paragraphs, which stay what they are. -/
def takeBreak? (c : Cursor) : Option (Char × Cursor) :=
  match c.rest with
  | '\r' :: '\n' :: _ => some ('\n', c.advance 2)
  | ch :: _ =>
    if isBreak ch then
      some (if ch == '\u2028' || ch == '\u2029' then ch else '\n', c.step)
    else none
  | [] => none

def skipBreak (c : Cursor) : Cursor :=
  match c.takeBreak? with
  | some (_, c) => c
  | none => c

/-- Skip a comment that starts here. -/
def skipComment (c : Cursor) : Cursor :=
  if c.next? == some '#' then c.skip (!isBreak ·) else c

/-- Whether three equal characters stand here as a word. -/
def atTriple (ch : Char) (c : Cursor) : Bool :=
  [ch, ch, ch].isPrefixOf c.rest && endsWord (c.at? 3)

/-- Whether a mark between documents stands here, whatever the column. -/
def atMarker (c : Cursor) : Bool := c.atTriple '-' || c.atTriple '.'

/-- The fault of bad notation here. -/
def fault (c : Cursor) : Fault := .malformed c.line

/-- Only a comment may follow on the line; go past its end. -/
def finishLine (c : Cursor) : Except Fault Cursor :=
  let c := (c.skip isSpace).skipComment
  if endsLine c.next? then .ok c.skipBreak else .error c.fault

end Cursor
end Neogrammar.Yaml
