import Neogrammar.Request.Operation
import Neogrammar.Yaml.Read

/-!
# Change requests

A request lists changes, each an operation with its fields. The language of a request fills in where
an operation needs one and its change names none. A request that is read from a text remembers the
lines on which its changes start.
-/
namespace Neogrammar

/-- One change. Its fields keep their order. -/
structure Change where
  operation : String
  fields : List (Datum × Datum)
  line : Option Nat
  deriving Repr

namespace Change

/-- The value of a field, if it is there. -/
def field? (c : Change) (name : String) : Option Datum := Datum.field? name c.fields

/-- The value of a field, null where it is not there. -/
def fieldOrNull (c : Change) (name : String) : Datum := (c.field? name).getD .null

end Change

/-- A request with at least one change. -/
structure Request where
  changes : List Change
  language : Datum
  sessionName : Datum
  sessionDescription : Datum
  deriving Repr

namespace Request

/-- Why a request is not read. -/
inductive ReadError where
  | malformed (line : Nat)
  | empty
  | notAMap
  | badLanguage
  | badSession
  | noChanges
  | changesNotAList
  | emptyChanges
  | changeNotAMap (index : Nat) (line : Option Nat)
  | noOperation (index : Nat) (line : Option Nat)
  | operationNotText (index : Nat) (line : Option Nat)
  /-- A character or value of the text that is refused before the request is looked at. -/
  | fault (cause : Yaml.Fault)
  deriving Repr

namespace ReadError

/-- How a change is named in a message. -/
def place (index : Nat) (line : Option Nat) : String :=
  "Change #" ++ Text.natText (index + 1)
    ++ match line with
      | some l => " (line " ++ Text.natText l ++ ")"
      | none => ""

def message : ReadError → String
  | malformed _ => "Invalid YAML"
  | empty => "Empty change request"
  | notAMap => "YAML root must be a mapping (dictionary)"
  | badLanguage => "Field 'language' must be an index or a name"
  | badSession => "Field 'session' must be a mapping"
  | noChanges => "Missing required field: 'changes'"
  | changesNotAList => "Field 'changes' must be a list"
  | emptyChanges => "Field 'changes' cannot be empty"
  | changeNotAMap i l => place i l ++ " must be a mapping (dictionary)"
  | noOperation i l => place i l ++ ": Missing required field 'operation'"
  | operationNotText i l => place i l ++ ": Field 'operation' must be a string"
  | fault cause => cause.message

/-- The line that an error is about. -/
def line? : ReadError → Option Nat
  | malformed l => some (l + 1)
  | changeNotAMap _ l | noOperation _ l | operationNotText _ l => l
  | _ => none

end ReadError

/-- An index or a name. -/
def isLanguageValue : Datum → Bool
  | .int _ | .text _ => true
  | _ => false

/-- Fill in the language of the request where an operation needs one. -/
def withLanguage (language : Datum) (operation : String) (fields : List (Datum × Datum)) :
    List (Datum × Datum) :=
  if language.isNull || (Datum.field? "language" fields).isSome then fields
  else
    match Operation.ofName? operation with
    | some o =>
      if o.required.contains "language" then fields ++ [(.text "language", language)] else fields
    | none => fields

/-- The fields of a change besides its operation. -/
def otherFields (fields : List (Datum × Datum)) : List (Datum × Datum) :=
  fields.filter fun e => e.1.text? != some "operation"

def changeOfData (language : Datum) (index : Nat) (line : Option Nat) (d : Datum) :
    Except ReadError Change :=
  match d with
  | .map es =>
    match Datum.field? "operation" es with
    | none => .error (.noOperation index line)
    | some operation =>
      if !operation.truthy then .error (.noOperation index line)
      else
        match operation with
        | .text name => .ok ⟨name, withLanguage language name (otherFields es), line⟩
        | _ => .error (.operationNotText index line)
  | _ => .error (.changeNotAMap index line)

/-- Changes from the one at `index` on; `lines` holds their lines. -/
def changesOfData (language : Datum) : Nat → List Nat → List Datum → Except ReadError (List Change)
  | _, _, [] => .ok []
  | index, lines, d :: rest => do
    let first ← changeOfData language index lines.head? d
    let more ← changesOfData language (index + 1) lines.tail rest
    pure (first :: more)

/-- Read a request; `lines` holds the lines of its changes, as far as they are known. -/
def ofData (lines : List Nat) (d : Datum) : Except ReadError Request :=
  match d with
  | .null => .error .empty
  | .map es =>
    let language := (Datum.field? "language" es).getD .null
    if !language.isNull && !isLanguageValue language then .error .badLanguage
    else
      match (Datum.field? "session" es).getD (.map []) with
      | .map session =>
        match (Datum.field? "changes" es).getD .null with
        | .null => .error .noChanges
        | .list [] => .error .emptyChanges
        | .list items => do
          let changes ← changesOfData language 0 lines items
          pure ⟨changes, language, (Datum.field? "name" session).getD .null,
            (Datum.field? "description" session).getD .null⟩
        | _ => .error .changesNotAList
      | _ => .error .badSession
  | _ => .error .notAMap

/-- The entries of a mapping as its value takes them, what it merges in first. -/
def entriesOf (node : Yaml.Node) : List (Yaml.Node × Yaml.Node) :=
  match node, Yaml.flatten node with
  | .mapping _ _ _, .ok entries => entries
  | _, _ => []

/-- The lines of the items of a sequence under the key `changes`. -/
def linesUnder : Yaml.Node × Yaml.Node → Option (List Nat)
  | (.scalar _ "changes" _, .sequence _ items _) => some (items.map fun item => item.line + 1)
  | _ => none

/-- The lines of the changes: those of the first sequence under that key. -/
def linesOfChanges (node : Yaml.Node) : List Nat := ((entriesOf node).findSome? linesUnder).getD []

/-- Read a request from a text. -/
def ofText (text : String) : Except ReadError Request :=
  match Yaml.nodeOf? text with
  | .error (.malformed line) => .error (.malformed line)
  | .error fault => .error (.fault fault)
  | .ok none => .error .empty
  | .ok (some node) =>
    match node.value with
    | .error (.malformed line) => .error (.malformed line)
    | .error fault => .error (.fault fault)
    | .ok d => ofData (linesOfChanges node) d

end Request
end Neogrammar
