import Neogrammar.Datum.Display

/-!
# Writing JSON

Two layouts: all on one line, or every item on a line of its own, indented by its depth. A point in
time has no written form, and a number past the digit limit is not written: the text ends where it
would stand, and says why.
-/
namespace Neogrammar.Json

/-- Why a value is not written. -/
inductive Lack where
  /-- Values of its kind have no written form. -/
  | form
  /-- A whole number needs too many digits. -/
  | digits
  deriving DecidableEq, Repr

/-- A written text, and what ends it before all of the value is in it, if anything does. -/
structure Written where
  text : List Char
  lack : Option Lack
  deriving DecidableEq, Repr

namespace Written

def of (s : List Char) : Written := ⟨s, none⟩

def cut (lack : Lack) : Written := ⟨[], some lack⟩

/-- One text after another; nothing follows an incomplete one. -/
def andThen (a b : Written) : Written :=
  if a.lack.isNone then ⟨a.text ++ b.text, b.lack⟩ else a

end Written

/-- One character of a text: quotes, backslashes and controls are escaped. -/
def escapeChar (c : Char) : List Char :=
  if c = '"' then ['\\', '"']
  else if c = '\\' then ['\\', '\\']
  else if c = '\n' then ['\\', 'n']
  else if c = '\r' then ['\\', 'r']
  else if c = '\t' then ['\\', 't']
  else if c = '\x08' then ['\\', 'b']
  else if c = '\x0c' then ['\\', 'f']
  else if c.toNat < 0x20 then '\\' :: 'u' :: Text.hexDigits 4 c.toNat
  else [c]

def writeText (s : String) : List Char := '"' :: s.toList.flatMap escapeChar ++ ['"']

def writeReal : Double → String
  | .nan => "NaN"
  | .infinite true => "-Infinity"
  | .infinite false => "Infinity"
  | x => x.text

/-- How items are set apart. -/
inductive Layout where
  | line
  | indented (width : Nat)
  deriving DecidableEq, Repr

namespace Layout

/-- What stands between an opening bracket at depth `depth` and its first item. -/
def before (l : Layout) (depth : Nat) : List Char :=
  match l with
  | .line => []
  | .indented width => '\n' :: List.replicate (width * (depth + 1)) ' '

def between (l : Layout) (depth : Nat) : List Char :=
  match l with
  | .line => [',', ' ']
  | .indented width => ',' :: '\n' :: List.replicate (width * (depth + 1)) ' '

def after (l : Layout) (depth : Nat) : List Char :=
  match l with
  | .line => []
  | .indented width => '\n' :: List.replicate (width * depth) ' '

end Layout

/-- The text of a whole number. -/
def intText (n : Int) : Except Lack String :=
  if Text.isWritable n then .ok (Text.intText n) else .error .digits

/-- The text of a key, which must be a scalar other than a point in time. -/
def keyText : Datum → Except Lack String
  | .null => .ok "null"
  | .bool true => .ok "true"
  | .bool false => .ok "false"
  | .int n => intText n
  | .real x => .ok (writeReal x)
  | .text s => .ok s
  | _ => .error .form

/-- Whether a value is a whole number past the digit limit. -/
def isPastLimit : Datum → Bool
  | .int n => !Text.isWritable n
  | _ => false

/-- An item behind what sets it apart. A number past the digit limit ends the text before both. -/
def setApart (gap : List Char) (item : Datum) (w : Written) : Written :=
  if isPastLimit item then .cut .digits else (Written.of gap).andThen w

mutual

/-- The text of a value at a given depth. -/
def write (l : Layout) (depth : Nat) : Datum → Written
  | .null => .of "null".toList
  | .bool true => .of "true".toList
  | .bool false => .of "false".toList
  | .int n =>
    match intText n with
    | .error lack => .cut lack
    | .ok s => .of s.toList
  | .real x => .of (writeReal x).toList
  | .text s => .of (writeText s)
  | .time _ => .cut .form
  | .list [] => .of ['[', ']']
  | .list (x :: xs) =>
    (setApart ('[' :: l.before depth) x (write l (depth + 1) x)).andThen <|
      (writeItems l depth xs).andThen (.of (l.after depth ++ [']']))
  | .map [] => .of ['\x7b', '\x7d']
  | .map ((k, v) :: es) =>
    (Written.of ('\x7b' :: l.before depth)).andThen <| (writeEntry l depth k v).andThen <|
      (writeEntries l depth es).andThen (.of (l.after depth ++ ['\x7d']))

/-- Further items, each with what sets it apart. -/
def writeItems (l : Layout) (depth : Nat) : List Datum → Written
  | [] => .of []
  | x :: xs =>
    (setApart (l.between depth) x (write l (depth + 1) x)).andThen (writeItems l depth xs)

def writeEntry (l : Layout) (depth : Nat) (k v : Datum) : Written :=
  match keyText k with
  | .error lack => .cut lack
  | .ok key => (Written.of (writeText key ++ [':', ' '])).andThen (write l (depth + 1) v)

/-- Further entries; a key without a text ends the output before what sets it apart. -/
def writeEntries (l : Layout) (depth : Nat) : List (Datum × Datum) → Written
  | [] => .of []
  | (k, v) :: es =>
    match keyText k with
    | .error lack => .cut lack
    | .ok _ =>
      (Written.of (l.between depth)).andThen <|
        (writeEntry l depth k v).andThen (writeEntries l depth es)

end

end Neogrammar.Json
