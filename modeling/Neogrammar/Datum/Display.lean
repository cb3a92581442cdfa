import Neogrammar.Datum.Basic
import Neogrammar.Number.Shortest
import Neogrammar.Text.Quoted

/-!
# Displayed data

`quoted` is the notation of a value inside other text; `display` differs only at the top, where a
text or point in time stands without quotation.
-/
namespace Neogrammar.Datum

mutual

/-- The notation of a value. -/
def quoted : Datum → String
  | .null => "None"
  | .bool true => "True"
  | .bool false => "False"
  | .int n => Text.intText n
  | .real x => x.text
  | .text s => Text.quoted s
  | .time t => t.quoted
  | .list xs => "[" ++ ", ".intercalate (quotedItems xs) ++ "]"
  | .map es => "\x7b" ++ ", ".intercalate (quotedEntries es) ++ "\x7d"

def quotedItems : List Datum → List String
  | [] => []
  | x :: rest => quoted x :: quotedItems rest

def quotedEntries : List (Datum × Datum) → List String
  | [] => []
  | (k, v) :: rest => (quoted k ++ ": " ++ quoted v) :: quotedEntries rest

end

mutual

/-- Whether a value can be written: no whole number in it needs too many digits. -/
def isWritable : Datum → Bool
  | .int n => Text.isWritable n
  | .list xs => areWritable xs
  | .map es => entriesWritable es
  | _ => true

def areWritable : List Datum → Bool
  | [] => true
  | x :: rest => isWritable x && areWritable rest

def entriesWritable : List (Datum × Datum) → Bool
  | [] => true
  | (k, v) :: rest => isWritable k && isWritable v && entriesWritable rest

end

/-- A value as it stands in running text. -/
def display : Datum → String
  | .text s => s
  | .time t => t.text ' '
  | d => quoted d

@[simp] theorem display_text (s : String) : display (.text s) = s := rfl
@[simp] theorem display_int (n : Int) : display (.int n) = Text.intText n := by
  simp [display, quoted]

/-- Fixed-shape notation of several values in round brackets; one alone has a comma after it. -/
def quotedTuple (items : List Datum) : String :=
  match items with
  | [x] => "(" ++ quoted x ++ ",)"
  | xs => "(" ++ ", ".intercalate (quotedItems xs) ++ ")"

end Neogrammar.Datum
