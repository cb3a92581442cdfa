import Neogrammar.Text.Kinds
import Neogrammar.Text.Case

/-!
# Tests of one character

What a pattern may ask of a single character: to be a given one, to be any other, to belong to a
set. A test may disregard letter case, in all of Unicode or in ASCII alone.
-/
namespace Neogrammar.Pattern

/-- How letter case is treated. -/
inductive Fold where
  | exact
  | ascii
  | unicode
  deriving DecidableEq, Repr

namespace Fold

def lower : Fold → Nat → Nat
  | exact, c => c
  | ascii, c => Text.asciiLower c
  | unicode, c => Text.lower c

def isCased : Fold → Nat → Bool
  | exact, _ => false
  | ascii, c => Text.isAsciiCased c
  | unicode, c => Text.isCased c

/-- Lower-case letters that count as the same as the lower-case letter `c`, itself first. -/
def companions : Fold → Nat → List Nat
  | unicode, c => c :: Text.variants c
  | _, c => [c]

/-- Whether two characters are the same letter; one without case is only like itself. -/
def same (f : Fold) (c x : Nat) : Bool :=
  if f.isCased c then (f.companions (f.lower c)).contains (f.lower x) else x == c

@[simp] theorem same_exact (c x : Nat) : same .exact c x = (x == c) := by simp [same, isCased]

/-- Characters whose lower-case form is `c`. -/
def sourcesOf : Fold → Nat → List Nat
  | exact, c => [c]
  | ascii, c =>
    (if Text.asciiLower c == c then [c] else [])
      ++ if 0x61 ≤ c && c ≤ 0x7A then [c - 32] else []
  | unicode, c =>
    (if Text.lower c == c then [c] else [])
      ++ (if 0x61 ≤ c && c ≤ 0x7A then [c - 32] else [])
      ++ Text.lowerRuns.toList.filterMap fun run =>
          let d := ((c : Int) - run.shift).toNat
          if d ≥ 0x80 && run.low ≤ d && d ≤ run.high && (d - run.low) % run.stride == 0
              && Text.lower d == c then some d
          else none

/-- Characters that a set may list to hold the lower-case letter `c`. -/
def sources (f : Fold) (c : Nat) : List Nat := (f.companions c).flatMap f.sourcesOf

end Fold

/-- The three classes with an escape of their own. -/
inductive CharKind where
  | digit
  | space
  | word
  deriving DecidableEq, Repr

/-- A class, or all outside it, in Unicode or within ASCII. -/
structure CharClass where
  kind : CharKind
  negated : Bool
  ascii : Bool
  deriving DecidableEq, Repr

def CharKind.holds : CharKind → Bool → Nat → Bool
  | digit, true, c => Text.isAsciiDigit c
  | digit, false, c => Text.isDecimal c
  | space, true, c => Text.isAsciiBlank c
  | space, false, c => Text.isBlank c
  | word, true, c => Text.isAsciiWordPart c
  | word, false, c => Text.isWordPart c

def CharClass.holds (k : CharClass) (c : Nat) : Bool := k.kind.holds k.ascii c != k.negated

/-- One member of a set. -/
inductive SetItem where
  | single (c : Nat)
  | range (low high : Nat)
  | kind (k : CharClass)
  deriving DecidableEq, Repr

namespace SetItem

/-- Plain membership. -/
def holds (c : Nat) : SetItem → Bool
  | single d => c == d
  | range low high => low ≤ c && c ≤ high
  | kind k => k.holds c

/-- Membership of the lower-case character `y`. Beyond the first plane a single member counts only
as written, and a range holds what it holds in either case. -/
def holdsFolded (f : Fold) (y : Nat) : SetItem → Bool
  | single d => if d ≤ 0xFFFF then (f.sources y).contains d else y == d
  | range low high =>
    (f.sources y).any (fun d => low ≤ d && d ≤ high && d ≤ 0xFFFF)
      || (high > 0xFFFF
        && ((low ≤ y && y ≤ high) || (low ≤ Text.upper y && Text.upper y ≤ high)))
  | kind k => k.holds y

/-- Whether letter case matters for a member. Ranges beyond the first plane always count. -/
def isCased (f : Fold) : SetItem → Bool
  | single d => if d ≤ 0xFFFF then f.isCased d else f != .exact
  | range low high =>
    if high > 0xFFFF then f != .exact
    else (List.range (high + 1 - low)).any fun i => f.isCased (low + i)
  | kind _ => false

end SetItem

/-- A test of one character. -/
inductive CharTest where
  | literal (c : Nat) (fold : Fold)
  | other (c : Nat) (fold : Fold)
  | notNewline
  | any
  | set (negated : Bool) (items : List SetItem) (fold : Fold)
  deriving DecidableEq, Repr

namespace CharTest

def holds : CharTest → Char → Bool
  | literal c f, x => f.same c x.toNat
  | other c f, x => !f.same c x.toNat
  | notNewline, x => x != '\n'
  | any, _ => true
  | set negated items .exact, x => items.any (·.holds x.toNat) != negated
  | set negated items f, x => items.any (·.holdsFolded f (f.lower x.toNat)) != negated

/-- The test of a written set: a set of one character is that character, and letter case is
disregarded only where a member has any. -/
def ofItems (negated : Bool) (items : List SetItem) (f : Fold) : CharTest :=
  match items.eraseDups with
  | [.single c] => if negated then other c f else literal c f
  | items =>
    if f != .exact && items.any (·.isCased f) then set negated items f
    else set negated items .exact

end CharTest
end Neogrammar.Pattern
