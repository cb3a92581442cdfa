import Neogrammar.Datum.Calendar
import Neogrammar.Error

/-!
# Faults of YAML texts

A fault of notation is known by its line. Other faults come from single values, once the notation
of the whole text is in order.
-/
namespace Neogrammar.Yaml

/-- Why a text or one of its values is not read. -/
inductive Fault where
  /-- A character that no text may hold. -/
  | unprintable
  /-- Bad notation; lines are counted from zero. -/
  | malformed (line : Nat)
  /-- An escape beyond the last character. -/
  | noCharacter
  /-- An escape so far beyond it that it is not looked at as a code. -/
  | codeTooLarge
  /-- Digits that do not belong to the base. -/
  | badDigits (base : Nat) (text : String)
  | tooLong (digits : Nat)
  | badFraction (text : String)
  /-- A fraction with so many parts that no double holds the worth of the first. -/
  | tooManySixties
  /-- A number or moment without any character. -/
  | blankNumber
  | noTruthValue (text : String)
  | noMoment
  | yearOutOfRange (year : Nat)
  | monthOutOfRange
  | dayOutOfRange
  | hourOutOfRange
  | minuteOutOfRange
  | secondOutOfRange
  | offsetOutOfRange (span : Int)
  deriving DecidableEq, Repr

namespace Fault

/-- The wording of a fault, as far as it has one. -/
def message : Fault → String
  | unprintable | malformed _ => ""
  | noCharacter => "chr() arg not in range(0x110000)"
  | codeTooLarge => Error.codeTooLarge.message
  | badDigits base text =>
    "invalid literal for int() with base " ++ Text.natText base ++ ": " ++ Text.quoted text
  | tooLong digits => tooLongMessage digits
  | badFraction text => "could not convert string to float: " ++ Text.quoted text
  | tooManySixties => "int too large to convert to float"
  | blankNumber => "string index out of range"
  | noTruthValue text => Text.quoted text
  | noMoment => ""
  | yearOutOfRange year => "year " ++ Text.natText year ++ " is out of range"
  | monthOutOfRange => "month must be in 1..12"
  | dayOutOfRange => "day is out of range for month"
  | hourOutOfRange => "hour must be in 0..23"
  | minuteOutOfRange => "minute must be in 0..59"
  | secondOutOfRange => "second must be in 0..59"
  | offsetOutOfRange span =>
    "offset must be a timedelta strictly between -timedelta(hours=24) and timedelta(hours=24), not "
      ++ Timestamp.spanQuoted span ++ "."

end Fault
end Neogrammar.Yaml
