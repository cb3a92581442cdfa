import Neogrammar.Pattern.Tree

/-!
# Reading position

A reader stands between two symbols of a text. A symbol is one character, or a backslash together
with the character after it; a backslash that ends the text is refused as soon as it comes next.
-/
namespace Neogrammar.Pattern

/-- One symbol of a pattern or template. -/
inductive Symbol where
  | plain (c : Char)
  | escaped (c : Char)
  deriving DecidableEq, Repr

namespace Symbol

def text : Symbol → String
  | plain c => c.toString
  | escaped c => String.ofList ['\\', c]

def length : Symbol → Nat
  | plain _ => 1
  | escaped _ => 2

end Symbol

/-- The rest of a text and the position where it starts. -/
structure Reader where
  position : Nat
  rest : List Char
  deriving DecidableEq, Repr

/-- A fault `back` characters before a position. -/
def faultAt {α : Type} (position back : Nat) (cause : Cause) : Except Refusal α :=
  .error (.fault ⟨cause, some (position - back)⟩)

namespace Reader

/-- A fault `back` characters before the reader. -/
def fail {α : Type} (r : Reader) (cause : Cause) (back : Nat) : Except Refusal α :=
  faultAt r.position back cause

/-- The next symbol. -/
def next : Reader → Option Symbol
  | ⟨_, []⟩ => none
  | ⟨_, '\\' :: c :: _⟩ => some (.escaped c)
  | ⟨_, c :: _⟩ => some (.plain c)

/-- Stand at a position, unless a lone backslash ends the text there. -/
def settle (position : Nat) (rest : List Char) : Except Refusal Reader :=
  if rest = ['\\'] then faultAt position 0 .escapeAtEnd else .ok ⟨position, rest⟩

/-- Stand at the start of a text. -/
def start (s : List Char) : Except Refusal Reader := settle 0 s

/-- Step over the next symbol. -/
def advance : Reader → Except Refusal Reader
  | ⟨p, []⟩ => .ok ⟨p, []⟩
  | ⟨p, '\\' :: _ :: rest⟩ => settle (p + 2) rest
  | ⟨p, _ :: rest⟩ => settle (p + 1) rest

/-- Whether `c` comes next. -/
def sees (r : Reader) (c : Char) : Bool := r.next == some (.plain c)

/-- Step over `c` if it comes next. -/
def accept (r : Reader) (c : Char) : Except Refusal (Bool × Reader) :=
  if r.sees c then do
    let r ← r.advance
    pure (true, r)
  else .ok (false, r)

/-- Read at most `limit` plain characters that satisfy `p`. -/
def takeWhile (p : Char → Bool) : Nat → Reader → Except Refusal (List Char × Reader)
  | 0, r => .ok ([], r)
  | limit + 1, r =>
    match r.next with
    | some (.plain c) =>
      if p c then do
        let (more, r) ← takeWhile p limit (← r.advance)
        pure (c :: more, r)
      else .ok ([], r)
    | _ => .ok ([], r)

/-- Read up to a terminator and step over it. `so` holds what was read, and `what` names the thing
that must not be empty. -/
def takeUntil (terminator : Char) (what : String) :
    Nat → List Char → Reader → Except Refusal (List Char × Reader)
  | 0, _, r => r.fail (.missing what) 0
  | fuel + 1, so, r =>
    match r.next with
    | none =>
      if so.isEmpty then r.fail (.missing what) 0
      else r.fail (.unterminatedName terminator) so.length
    | some (.plain c) => do
      let r ← r.advance
      if c = terminator then
        if so.isEmpty then r.fail (.missing what) 1 else pure (so, r)
      else takeUntil terminator what fuel (so ++ [c]) r
    | some (.escaped c) => do
      let r ← r.advance
      takeUntil terminator what fuel (so ++ ['\\', c]) r

/-- A name up to its terminator. -/
def name (r : Reader) (terminator : Char) (what : String) : Except Refusal (String × Reader) := do
  let (s, r) ← takeUntil terminator what (r.rest.length + 1) [] r
  pure (String.ofList s, r)

/-- Step over everything up to and including the next plain `c`; `found` is false at the end of
the text. -/
def skipPast (c : Char) : Nat → Reader → Except Refusal (Bool × Reader)
  | 0, r => .ok (false, r)
  | fuel + 1, r =>
    match r.next with
    | none => .ok (false, r)
    | some symbol => do
      let r ← r.advance
      if symbol = .plain c then pure (true, r) else skipPast c fuel r

end Reader

def isOctal (c : Char) : Bool := '0' ≤ c && c ≤ '7'

def isHex (c : Char) : Bool :=
  c.isDigit || ('a' ≤ c && c ≤ 'f') || ('A' ≤ c && c ≤ 'F')

def isAsciiAlpha (c : Char) : Bool := ('a' ≤ c && c ≤ 'z') || ('A' ≤ c && c ≤ 'Z')

/-- The value of a digit in bases up to sixteen. -/
def digitValue (c : Char) : Nat :=
  if c.isDigit then c.toNat - '0'.toNat
  else if 'a' ≤ c then c.toNat - 'a'.toNat + 10
  else c.toNat - 'A'.toNat + 10

/-- The number written by digits of a base. -/
def numeral (base : Nat) (digits : List Char) : Nat := Text.ofDigits base (digits.map digitValue)

/-- The control characters with a letter of their own. -/
def controlEscape? : Char → Option Nat
  | 'a' => some 7
  | 'b' => some 8
  | 'f' => some 12
  | 'n' => some 10
  | 'r' => some 13
  | 't' => some 9
  | 'v' => some 11
  | '\\' => some 92
  | _ => none

end Neogrammar.Pattern
