import Neogrammar.Pattern.Parse

/-!
# Replacement templates

A template is text with references to groups, by number or by name. Escapes stand for control
characters and for characters given in octal; an escaped letter without a meaning is a fault, any
other escaped character stands for itself and its backslash.
-/
namespace Neogrammar.Pattern

/-- A part of a template. -/
inductive Piece where
  | text (s : List Char)
  | group (n : Nat)
  deriving DecidableEq, Repr

abbrev Template := List Piece

/-- A reference to group `n`, which must exist; `back` tells where a fault is. -/
def groupPiece (c : Compiled) (n back : Nat) (r : Reader) : Except Refusal Piece :=
  if n > c.groups then r.fail (.invalidReference n) back else .ok (.group n)

/-- A reference in angle brackets; the reader stands after the letter. -/
def namedPiece (c : Compiled) (r : Reader) : Except Refusal (Piece × Reader) := do
  let (opened, r) ← r.accept '<'
  if !opened then r.fail (.missing "<") 0
  else
    let (name, r) ← r.name '>' "group name"
    if Text.isIdentifier name.toList then
      match c.names.lookup name with
      | some n => do
        let piece ← groupPiece c n (name.length + 1) r
        pure (piece, r)
      | none => .error (.unknownGroup name)
    else
      match Text.readInt name with
      | .ok (.ofNat n) => do
        let piece ← groupPiece c n (name.length + 1) r
        pure (piece, r)
      | _ => r.fail (.badGroupName name) (name.length + 1)

/-- A character with a code below 256. -/
def bytePiece (n : Nat) : Piece := .text [Char.ofNat (n % 256)]

/-- An escape that starts with a digit from 1 to 9. -/
def numberPiece (c : Compiled) (letter : Char) (r : Reader) : Except Refusal (Piece × Reader) :=
  let one := do
    let piece ← groupPiece c (numeral 10 [letter]) 1 r
    pure (piece, r)
  match r.next with
  | some (.plain d) =>
    if d.isDigit then do
      let r ← r.advance
      let two := do
        let piece ← groupPiece c (numeral 10 [letter, d]) 2 r
        pure (piece, r)
      match r.next with
      | some (.plain e) =>
        if isOctal letter && isOctal d && isOctal e then do
          let r ← r.advance
          let n := numeral 8 [letter, d, e]
          if n > 0o377 then r.fail (.octalOutOfRange (escapeText letter [d, e])) 4
          else pure (bytePiece n, r)
        else two
      | _ => two
    else one
  | _ => one

/-- An escape; the reader stands after its letter. -/
def escapePiece (c : Compiled) (letter : Char) (r : Reader) : Except Refusal (Piece × Reader) :=
  if letter = 'g' then namedPiece c r
  else if letter = '0' then do
    let (digits, r) ← r.takeWhile isOctal 2
    pure (bytePiece (numeral 8 digits), r)
  else if letter.isDigit then numberPiece c letter r
  else
    match controlEscape? letter with
    | some n => .ok (bytePiece n, r)
    | none =>
      if isAsciiAlpha letter then r.fail (.badEscape (escapeText letter [])) 2
      else .ok (.text ['\\', letter], r)

/-- The pieces of a template. -/
def pieces (c : Compiled) : Nat → Reader → Except Refusal Template
  | 0, _ => .ok []
  | fuel + 1, r =>
    match r.next with
    | none => .ok []
    | some (.plain a) => do
      let rest ← pieces c fuel (← r.advance)
      pure (.text [a] :: rest)
    | some (.escaped a) => do
      let (piece, r) ← escapePiece c a (← r.advance)
      let rest ← pieces c fuel r
      pure (piece :: rest)

/-- Read a template for a pattern. -/
def template (c : Compiled) (s : List Char) : Except Refusal Template := do
  pieces c (s.length + 1) (← Reader.start s)

end Neogrammar.Pattern
