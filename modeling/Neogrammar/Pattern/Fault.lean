import Neogrammar.Text.Quoted
import Neogrammar.Text.Numeral

/-!
# Faults of patterns and templates

What can be wrong with the text of a pattern or of a replacement template, where, and how that is
worded.
-/
namespace Neogrammar.Pattern

/-- What is wrong with a pattern or template. -/
inductive Cause where
  | escapeAtEnd
  | incompleteEscape (escape : String)
  | badEscape (escape : String)
  | octalOutOfRange (escape : String)
  | missing (what : String)
  | unterminatedName (terminator : Char)
  | undefinedCharacter (name : String)
  | badGroupName (name : String)
  | unknownGroupName (name : String)
  | redefinedGroup (name : String) (group former : Nat)
  | badGroupNumber
  | invalidReference (group : Nat)
  | openGroup
  | groupInLookbehind
  | unterminatedSet
  | badRange (low high : String)
  | nothingToRepeat
  | multipleRepeat
  | repeatBounds
  | unexpectedEnd
  | unknownExtension (text : String)
  | unterminatedComment
  | unterminatedGroup
  | unbalanced
  | thirdBranch
  | lateFlags
  | localeFlag
  | rivalFlags
  | unknownFlag
  | globalFlagOn
  | globalFlagOff
  | rivalFlagsOff
  | flagOnAndOff
  | lookbehindTooLong
  | lookbehindWidth
  | noRepeats (operator : String)
  deriving DecidableEq, Repr

def Cause.message : Cause → String
  | escapeAtEnd => "bad escape (end of pattern)"
  | incompleteEscape e => "incomplete escape " ++ e
  | badEscape e => "bad escape " ++ e
  | octalOutOfRange e => "octal escape value " ++ e ++ " outside of range 0-0o377"
  | missing what => "missing " ++ what
  | unterminatedName t => "missing " ++ t.toString ++ ", unterminated name"
  | undefinedCharacter n => "undefined character name " ++ Text.quoted n
  | badGroupName n => "bad character in group name " ++ Text.quoted n
  | unknownGroupName n => "unknown group name " ++ Text.quoted n
  | redefinedGroup n g f =>
    "redefinition of group name " ++ Text.quoted n ++ " as group " ++ Text.natText g
      ++ "; was group " ++ Text.natText f
  | badGroupNumber => "bad group number"
  | invalidReference g => "invalid group reference " ++ Text.natText g
  | openGroup => "cannot refer to an open group"
  | groupInLookbehind => "cannot refer to group defined in the same lookbehind subpattern"
  | unterminatedSet => "unterminated character set"
  | badRange low high => "bad character range " ++ low ++ "-" ++ high
  | nothingToRepeat => "nothing to repeat"
  | multipleRepeat => "multiple repeat"
  | repeatBounds => "min repeat greater than max repeat"
  | unexpectedEnd => "unexpected end of pattern"
  | unknownExtension text => "unknown extension ?" ++ text
  | unterminatedComment => "missing ), unterminated comment"
  | unterminatedGroup => "missing ), unterminated subpattern"
  | unbalanced => "unbalanced parenthesis"
  | thirdBranch => "conditional backref with more than two branches"
  | lateFlags => "global flags not at the start of the expression"
  | localeFlag => "bad inline flags: cannot use 'L' flag with a str pattern"
  | rivalFlags => "bad inline flags: flags 'a', 'u' and 'L' are incompatible"
  | unknownFlag => "unknown flag"
  | globalFlagOn => "bad inline flags: cannot turn on global flag"
  | globalFlagOff => "bad inline flags: cannot turn off global flag"
  | rivalFlagsOff => "bad inline flags: cannot turn off flags 'a', 'u' and 'L'"
  | flagOnAndOff => "bad inline flags: flag turned on and off"
  | lookbehindTooLong => "looks too much behind"
  | lookbehindWidth => "look-behind requires fixed-width pattern"
  | noRepeats operator => "internal: unsupported template operator " ++ operator

/-- A fault with its position in the text, where it has one. -/
structure Fault where
  cause : Cause
  position : Option Nat
  deriving DecidableEq, Repr

/-- The line of a position, counted from 1, and the column in it, counted from 1. -/
def lineAndColumn (s : List Char) (position : Nat) : Nat × Nat :=
  let before := s.take position
  (before.count '\n' + 1, (before.reverse.takeWhile (· != '\n')).length + 1)

/-- The wording of a fault in the text `s`. The line is named only where there are several. -/
def Fault.message (f : Fault) (s : List Char) : String :=
  match f.position with
  | none => f.cause.message
  | some p =>
    let place := f.cause.message ++ " at position " ++ Text.natText p
    if s.contains '\n' then
      let (line, column) := lineAndColumn s p
      place ++ " (line " ++ Text.natText line ++ ", column " ++ Text.natText column ++ ")"
    else place

/-- Why a pattern or template is refused: a fault in its text, or one of the refusals that are not
about a place in it. -/
inductive Refusal where
  | fault (f : Fault)
  | repetitionTooLarge
  | codeTooLarge
  | numeralTooLong (digits : Nat)
  | rivalAlphabets
  | unknownGroup (name : String)
  deriving DecidableEq, Repr

end Neogrammar.Pattern
