import Neogrammar.Datum.Display
import Neogrammar.Pattern.Fault

/-!
# Errors of editing

Everything that can go wrong while a project is edited, as causes; `Error.message` words them.
-/
namespace Neogrammar

/-- Why a value is not read as a whole number, or a whole number not written. -/
inductive NumberError where
  | malformed (text : String)
  | tooLong (digits : Nat)
  | notANumber
  | infinite
  /-- A number that needs more digits than may be written. -/
  | unwritable
  deriving DecidableEq, Repr

/-- The wording of what is past the digit limit, with a remark on its length. -/
def pastLimitMessage (remark : String) : String :=
  "Exceeds the limit (" ++ Text.natText Text.digitLimit
    ++ " digits) for integer string conversion" ++ remark
    ++ "; use sys.set_int_max_str_digits() to increase the limit"

/-- The wording of a numeral past the digit limit. -/
def tooLongMessage (digits : Nat) : String :=
  pastLimitMessage (": value has " ++ Text.natText digits ++ " digits")

def NumberError.message : NumberError → String
  | .malformed text => "invalid literal for int() with base 10: " ++ Text.quoted text
  | .tooLong digits => tooLongMessage digits
  | .notANumber => "cannot convert float NaN to integer"
  | .infinite => "cannot convert float infinity to integer"
  | .unwritable => pastLimitMessage ""

/-- A cause of failure. -/
inductive Error where
  /-- An index that addresses no slot or rule. -/
  | outOfRange (index : Datum) (length : Nat)
  /-- An index that addresses a slot whose content was removed. -/
  | vacant (index : Datum)
  | categoryKey (key : Datum)
  | categoryContent (key : Datum)
  | unknownCategory (key : Datum)
  | coordinate (text : String)
  /-- An environment without exactly one marker. -/
  | environment (text : String)
  /-- A target without a category for a replacement with one. -/
  | target (target : Datum)
  /-- A rule whose pattern or template cannot be read; `source` is the text that holds the fault. -/
  | pattern (rule : String) (fault : Pattern.Fault) (source : String)
  /-- A rule that keeps changing a text: past a length, or past the count of passes. -/
  | diverges (pattern : String) (passes : Int) (length : Option Int)
  | ghost (word : Nat)
  | selfAncestor (language : Int)
  /-- A value of a kind that the operation cannot use. -/
  | wrongKind
  | number (cause : NumberError)
  | noLanguage (name : String)
  | noPartOfSpeech (abbr : String)
  | ruleKind (name : String)
  | notPlainRules (kind : String)
  | repetitionTooLarge
  | codeTooLarge
  | rivalAlphabets
  | unknownGroup (name : String)
  | missingKey (key : Datum)
  | noGrapheme
  deriving Repr

namespace Error

/-- The wording of an error whose values can be written. -/
def wording : Error → String
  | .outOfRange index length =>
    "Index out of range: " ++ index.display ++ " (length " ++ Text.natText length ++ ")"
  | .vacant index => "Invalid element at index " ++ index.display
  | .categoryKey key => "Category key must be one character: " ++ key.quoted
  | .categoryContent key => "Category " ++ key.quoted ++ " needs non-empty graphemes"
  | .unknownCategory key => "Unknown category: " ++ key.quoted
  | .coordinate text => "Coordinate must look like 'lang:word': " ++ Text.quoted text
  | .environment text => "Invalid sound-change environment: " ++ Text.quoted text
  | .target t => "Invalid sound-change target: " ++ t.quoted
  | .pattern rule fault source =>
    "Invalid pattern in rule " ++ rule ++ ": " ++ fault.message source.toList
  | .diverges rule passes none =>
    "Rule " ++ Text.quoted rule ++ " did not converge after " ++ Text.intText passes
      ++ " iterations"
  | .diverges rule passes (some length) =>
    "Rule " ++ Text.quoted rule ++ " grew its input past " ++ Text.intText length
      ++ " characters after " ++ Text.intText passes ++ " iterations"
  | .ghost word => "Ghost word: " ++ Text.natText word
  | .selfAncestor language => "Language " ++ Text.intText language ++ " cannot derive from itself"
  | .wrongKind => "BadType"
  | .number cause => cause.message
  | .noLanguage name => "Language not found: " ++ Text.quoted name
  | .noPartOfSpeech abbr => "Part of speech not found: " ++ Text.quoted abbr
  | .ruleKind name => Text.quoted name ++ " is not a valid RuleKind"
  | .notPlainRules kind => "Not a plain rule list: " ++ kind
  | .repetitionTooLarge => "the repetition number is too large"
  | .codeTooLarge => "Python int too large to convert to C int"
  | .rivalAlphabets => "ASCII and UNICODE flags are incompatible"
  | .unknownGroup name => "unknown group name " ++ Text.quoted name
  | .missingKey key => key.quoted
  | .noGrapheme => "tuple index out of range"

/-- The values that an error shows. -/
def shown : Error → List Datum
  | .outOfRange index _ | .vacant index => [index]
  | .categoryKey key | .categoryContent key | .unknownCategory key => [key]
  | .target t => [t]
  | .diverges _ passes length => .int passes :: length.toList.map .int
  | .selfAncestor language => [.int language]
  | _ => []

/-- The wording of an error. Where a value cannot be written, that is what is reported. -/
def message (e : Error) : String :=
  if e.shown.all Datum.isWritable then e.wording else NumberError.unwritable.message

/-- Errors of the editing rules themselves, as opposed to values and texts that do not fit. -/
def isEditing : Error → Bool
  | .wrongKind | .number _ | .noLanguage _ | .noPartOfSpeech _ | .ruleKind _ => false
  | .notPlainRules _ | .repetitionTooLarge | .codeTooLarge | .rivalAlphabets => false
  | .unknownGroup _ | .missingKey _ | .noGrapheme => false
  | _ => true

/-- The error of a rule whose pattern or template is refused. -/
def ofRefusal (rule source : String) : Pattern.Refusal → Error
  | .fault f => .pattern rule f source
  | .repetitionTooLarge => .repetitionTooLarge
  | .codeTooLarge => .codeTooLarge
  | .numeralTooLong digits => .number (.tooLong digits)
  | .rivalAlphabets => .rivalAlphabets
  | .unknownGroup name => .unknownGroup name

end Error

/-- Read a text as a whole number. -/
def wholeOfText (s : String) : Except Error Int :=
  match Text.readInt s with
  | .ok n => .ok n
  | .error .malformed => .error (.number (.malformed s))
  | .error (.tooLong digits) => .error (.number (.tooLong digits))

namespace Datum

/-- A value as it stands in running text, if it can be written. -/
def written (d : Datum) : Except Error String :=
  if d.isWritable then .ok d.display else .error (.number .unwritable)

/-- The notation of a value, if it can be written. -/
def noted (d : Datum) : Except Error String :=
  if d.isWritable then .ok d.quoted else .error (.number .unwritable)

theorem written_eq_error_iff {d : Datum} {e : Error} :
    d.written = .error e ↔ d.isWritable = false ∧ e = .number .unwritable := by
  unfold written
  cases d.isWritable <;> simp [eq_comm]

theorem noted_eq_error_iff {d : Datum} {e : Error} :
    d.noted = .error e ↔ d.isWritable = false ∧ e = .number .unwritable := by
  unfold noted
  cases d.isWritable <;> simp [eq_comm]

end Datum

/-- Read a value as a whole number: texts by their numeral, fractions toward zero. -/
def Datum.toWhole : Datum → Except Error Int
  | .int n => .ok n
  | .bool b => .ok (if b then 1 else 0)
  | .text s => wholeOfText s
  | .real .nan => .error (.number .notANumber)
  | .real x =>
    match x.truncate? with
    | some n => .ok n
    | none => .error (.number .infinite)
  | _ => .error .wrongKind

end Neogrammar
