import Neogrammar.Text.Kinds

/-!
# Numerals

Reading whole numbers: blanks around the numeral, a sign, decimal digits of any script, and single
low lines between digits. A numeral of more than `digitLimit` digits is refused, and a number that
needs more is not written.
-/
namespace Neogrammar.Text

/-- The most digits a numeral may have. -/
def digitLimit : Nat := 4300

/-- Why a text is not read as a number. -/
inductive NumeralError where
  | malformed
  | tooLong (digits : Nat)
  deriving DecidableEq, Repr

/-- Read digits with single low lines between them. `pending` says that a digit must follow. -/
def readDigits : Bool → List Char → Option (List Nat)
  | pending, [] => if pending then none else some []
  | pending, c :: rest =>
    match decimalValue? c.toNat with
    | some d => (readDigits false rest).map (d :: ·)
    | none => if c = '_' ∧ pending = false then readDigits true rest else none

/-- The number written by a list of digits, the highest first. -/
def ofDigits (base : Nat) (digits : List Nat) : Nat :=
  digits.foldl (fun n d => base * n + d) 0

/-- Read a numeral without sign or blanks. -/
def readNatural (s : List Char) : Except NumeralError Nat :=
  match readDigits true s with
  | none => .error .malformed
  | some digits =>
    if digits.length > digitLimit then .error (.tooLong digits.length)
    else .ok (ofDigits 10 digits)

/-- Read a whole number. -/
def readInt (s : String) : Except NumeralError Int :=
  match trim isNumeralBlank s.toList with
  | '-' :: rest => (readNatural rest).map fun n => -(n : Int)
  | '+' :: rest => (readNatural rest).map fun n => (n : Int)
  | rest => (readNatural rest).map fun n => (n : Int)

/-- Whether a whole number needs no more digits than a numeral may have. -/
def isWritable (n : Int) : Bool := (Nat.toDigits 10 n.natAbs).length ≤ digitLimit

/-- The decimal text of a natural number. -/
def natText (n : Nat) : String := String.ofList (Nat.toDigits 10 n)

/-- The decimal text of a whole number. -/
def intText : Int → String
  | .ofNat n => natText n
  | .negSucc n => "-" ++ natText (n + 1)

end Neogrammar.Text
