import Neogrammar.Pattern.Match
import Neogrammar.Pattern.Template

/-!
# Replacing matches

All matches are replaced from left to right, none of them overlapping. An empty match counts too,
also right after another match; but a second match at the place where one was empty must not be
empty itself.
-/
namespace Neogrammar.Pattern

/-- The match that starts at `p`, if there is one; with `nonempty` it must not end there. -/
def Compiled.matchAt? (c : Compiled) (text : Array Char) (nonempty : Bool) (p : Nat) :
    Option Found :=
  c.root.run text (fun q m => if nonempty && q == p then none else some (q, m)) p
    (.none c.groups)

/-- The characters from `a` up to `b`. -/
def stretch (text : Array Char) (a b : Nat) : List Char := (text.extract a b).toList

/-- The text of a group in a match from `a` to `b`: group 0 is the match, and a group that took no
part is empty. -/
def groupText (text : Array Char) (a b : Nat) (m : Marks) (n : Nat) : List Char :=
  if n = 0 then stretch text a b
  else
    match m.span? n with
    | some (a, b) => stretch text a b
    | none => []

/-- What a template makes of a match. -/
def Template.render (t : Template) (text : Array Char) (a b : Nat) (m : Marks) : List Char :=
  t.flatMap fun piece =>
    match piece with
    | .text s => s
    | .group n => groupText text a b m n

/-- Replace from position `p` on. A step either moves on or, after an empty match, asks for a match
that is not empty, so twice as many steps as there are positions are enough. -/
def Compiled.replaceFrom (c : Compiled) (t : Template) (text : Array Char) :
    Nat → Nat → Bool → List Char
  | 0, _, _ => []
  | fuel + 1, p, nonempty =>
    match c.matchAt? text nonempty p with
    | some (q, m) => t.render text p q m ++ c.replaceFrom t text fuel q (q == p)
    | none =>
      match text[p]? with
      | some x => x :: c.replaceFrom t text fuel (p + 1) false
      | none => []

/-- Replace every match in a text. -/
def Compiled.replace (c : Compiled) (t : Template) (s : List Char) : List Char :=
  c.replaceFrom t s.toArray (2 * s.length + 2) 0 false

/-- The characters that a pattern takes to mean something. -/
def isSpecial (c : Char) : Bool :=
  "\t\n\x0b\x0c\r #$&()*+-.?[\\]^\x7b|\x7d~".toList.contains c

/-- A text as a pattern that matches that text alone. -/
def escape (s : List Char) : List Char :=
  s.flatMap fun c => if isSpecial c then ['\\', c] else [c]

end Neogrammar.Pattern
