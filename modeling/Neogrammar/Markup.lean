import Neogrammar.Text.Composition
import Neogrammar.Text.Kinds

/-!
# Markup for letters beyond the keyboard

A name in braces stands for a letter. A backslash with a mark and a character puts the mark on the
character. Names are read first, so that a mark may go on a named letter. What has no meaning
stands for itself, without its braces or its backslash.
-/
namespace Neogrammar.Markup

/-- The letter of a name. -/
def letter? : String → Option Char
  | "o" => some 'ø'
  | "O" => some 'Ø'
  | "ae" => some 'æ'
  | "AE" => some 'Æ'
  | "oe" => some 'œ'
  | "OE" => some 'Œ'
  | "ss" => some 'ß'
  | "ng" => some 'ŋ'
  | "NG" => some 'Ŋ'
  | "sh" => some 'ʃ'
  | "zh" => some 'ʒ'
  | "th" => some 'θ'
  | "dh" => some 'ð'
  | "l" => some 'ł'
  | "L" => some 'Ł'
  | "d" => some 'đ'
  | "schwa" => some 'ə'
  | "glottal" => some 'ʔ'
  | "i" => some 'ı'
  | _ => none

/-- The combining mark that a character commands. -/
def mark? : Char → Option Char
  | '~' => some '\u0303'
  | '\'' => some '\u0301'
  | '\x60' => some '\u0300'
  | '^' => some '\u0302'
  | '"' => some '\u0308'
  | '-' => some '\u0304'
  | 'v' => some '\u030c'
  | 'o' => some '\u030a'
  | 'u' => some '\u0306'
  | '.' => some '\u0307'
  | 'c' => some '\u0327'
  | 'k' => some '\u0328'
  | _ => none

/-- A name in braces: its letter, or the name itself where it has none. -/
def nameValue (name : List Char) : List Char :=
  match letter? (String.ofList name) with
  | some c => [c]
  | none => name

/-- A mark command: the composed character, or both characters where there is no such mark. -/
def commandValue (mark base : Char) : List Char :=
  match mark? mark with
  | some m => Text.compose [base, m]
  | none => [mark, base]

/-- Replace names in braces. `pending` holds what was read since an open brace, as long as that may
still become a name. -/
def readNames : Option (List Char) → List Char → List Char
  | none, [] => []
  | some name, [] => '\x7b' :: name
  | none, c :: rest => if c = '\x7b' then readNames (some []) rest else c :: readNames none rest
  | some name, c :: rest =>
    if c = '\x7d' ∧ name ≠ [] then nameValue name ++ readNames none rest
    else if Text.isWordPart c.toNat then readNames (some (name ++ [c])) rest
    else if c = '\x7b' then '\x7b' :: name ++ readNames (some []) rest
    else '\x7b' :: name ++ c :: readNames none rest

/-- Replace mark commands. -/
def readCommands : List Char → List Char
  | '\\' :: mark :: base :: rest => commandValue mark base ++ readCommands rest
  | c :: rest => c :: readCommands rest
  | [] => []

/-- The text that markup stands for. -/
def interpret (text : String) : String :=
  String.ofList (readCommands (readNames none text.toList))

end Neogrammar.Markup
