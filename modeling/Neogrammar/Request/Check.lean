import Neogrammar.Project.Basic
import Neogrammar.Request.Basic

/-!
# Checking change requests

A request is checked before it runs: the fields of each change, the rules that it brings, and, given
a project, the languages and parts of speech that it names. Languages that the request itself adds
are known to the changes after.
-/
namespace Neogrammar.Request

/-- A fault of a field of a change. -/
structure FieldError where
  index : Nat
  operation : String
  field : String
  message : String
  line : Option Nat
  deriving DecidableEq, Repr

structure Warning where
  index : Nat
  operation : String
  message : String
  line : Option Nat
  deriving DecidableEq, Repr

structure CheckResult where
  errors : List FieldError
  warnings : List Warning
  deriving DecidableEq, Repr

def CheckResult.isValid (r : CheckResult) : Bool := r.errors.isEmpty

/-! ## Known languages -/

/-- The languages of a project, and those that the changes so far add. -/
structure Known where
  indices : List Nat
  names : List Datum
  next : Nat

namespace Known

def ofProject (p : Project) : Known :=
  ⟨p.languages.items.map (·.1), p.languages.items.map (·.2.name), p.languages.size⟩

def add (k : Known) (name : Datum) : Known := ⟨k.next :: k.indices, name :: k.names, k.next + 1⟩

/-- Whether an index or name leads to a known language. -/
def has (k : Known) : Datum → Bool
  | .text s => k.names.any fun name => name.same (.text s)
  | d => k.indices.any fun i => (Datum.nat i).same d

/-- The languages known after a change. -/
def after (k : Known) (c : Change) : Known :=
  match Operation.ofName? c.operation, c.field? "name" with
  | some .addLanguage, some (.text name) => k.add (.text name)
  | _, _ => k

end Known

/-! ## Single fields -/

/-- A whole number that is not negative. -/
def isIndex : Datum → Bool
  | .int n => 0 ≤ n
  | _ => false

def isReference (d : Datum) : Bool := isIndex d || d.isText

/-- What is wrong with a field: its name and a message. -/
abbrev Complaint := String × String

/-- Complain about a field unless it is null or fits. -/
def unlessNull (c : Change) (name : String) (fits : Datum → Bool) (what : String) :
    List Complaint :=
  let d := c.fieldOrNull name
  if d.isNull || fits d then [] else [(name, "Field '" ++ name ++ "' must be " ++ what)]

/-- Complain about a field that is there and does not fit. -/
def ifGiven (c : Change) (name : String) (fits : Datum → Bool) (what : String) : List Complaint :=
  match c.field? name with
  | none => []
  | some d => if fits d then [] else [(name, "Field '" ++ name ++ "' must be " ++ what)]

def missingFields (o : Operation) (c : Change) : List Complaint :=
  (o.required.filter fun name => (c.fieldOrNull name).isNull).map fun name =>
    (name, "Missing required field '" ++ name ++ "'")

def textFields : List String := ["name", "abbr", "mnemonic", "gloss", "note", "pattern"]

def kindComplaints (c : Change) : List Complaint :=
  unlessNull c "language" isReference "an index or a name"
    ++ unlessNull c "ancestor" isReference "an index or a name"
    ++ unlessNull c "index" isIndex "a non-negative integer"
    ++ ifGiven c "pos" isReference "an index or an abbreviation"
    ++ textFields.flatMap fun name => ifGiven c name Datum.isText "a string"

/-- A text of one character. -/
def isCategoryKey : Datum → Bool
  | .text s => s.length == 1
  | _ => false

/-- A text that is not empty. -/
def isGrapheme : Datum → Bool
  | .text s => !s.isEmpty
  | _ => false

def keyComplaints (c : Change) : List Complaint :=
  if isCategoryKey (c.fieldOrNull "key") then []
  else [("key", "Category key must be a single character")]

def contentComplaints (c : Change) : List Complaint :=
  match c.fieldOrNull "content" with
  | .list items =>
    if items.isEmpty || !items.all isGrapheme then
      [("content", "Category content must list non-empty graphemes")]
    else []
  | d => if isGrapheme d then [] else [("content", "Category content must be a string or a list")]

def categoryComplaints (o : Operation) (c : Change) : List Complaint :=
  match o with
  | .addCategory => keyComplaints c ++ contentComplaints c
  | .removeCategory => keyComplaints c
  | _ => []

/-- What is wrong with a coordinate. One that cannot be written ends the check. -/
def coordinateComplaint (d : Datum) : Except Error (List Complaint) :=
  match d with
  | .text s =>
    match Coordinate.ofText s with
    | .ok _ => .ok []
    | .error e => .ok [("ancestors", e.message)]
  | .map es =>
    let at? (name : String) := (Datum.field? name es).getD .null
    if isIndex (at? "lang") && isIndex (at? "word") then .ok []
    else d.noted.map fun shown =>
      [("ancestors", "Coordinate needs integer 'lang' and 'word': " ++ shown)]
  | d => d.noted.map fun shown => [("ancestors", "Invalid coordinate: " ++ shown)]

def ancestorComplaints (c : Change) : Except Error (List Complaint) :=
  match c.field? "ancestors" with
  | none => .ok []
  | some (.list items) => (items.mapM coordinateComplaint).map List.flatten
  | some _ => .ok [("ancestors", "Field 'ancestors' must be a list")]

/-- What is wrong with the pattern of a plain rule. A pattern that cannot be dealt with at all ends
the check. -/
def patternComplaints (o : Operation) (c : Change) : Except Error (List Complaint) :=
  match o.bringsPlainRule, c.fieldOrNull "pattern" with
  | true, .text pattern =>
    match Pattern.parse pattern.toList with
    | .ok _ => .ok []
    | .error (.fault f) =>
      .ok [("pattern", "Invalid regular expression: " ++ f.message pattern.toList)]
    | .error refusal => .error (.ofRefusal "" pattern refusal)
  | _, _ => .ok []

def environmentComplaints (o : Operation) (c : Change) : List Complaint :=
  if !o.bringsSoundChange then []
  else
    match c.fieldOrNull "environment" with
    | .text s =>
      if s.toList.count SoundChange.marker == 1 then []
      else [("environment",
        "Environment must contain exactly one '" ++ SoundChange.marker.toString ++ "'")]
    | _ => [("environment", "Field 'environment' must be a string")]

def derivationComplaints (o : Operation) (c : Change) : List Complaint :=
  if o = .derive ∧ (c.fieldOrNull "language").same (c.fieldOrNull "ancestor") then
    [("ancestor", "A language cannot derive from itself")]
  else []

/-- All that is wrong with a change, whatever the project. -/
def formComplaints (o : Operation) (c : Change) : Except Error (List Complaint) :=
  match missingFields o c with
  | [] => do
    let ancestors ← ancestorComplaints c
    let patterns ← patternComplaints o c
    pure (kindComplaints c ++ categoryComplaints o c ++ ancestors ++ patterns
      ++ environmentComplaints o c ++ derivationComplaints o c)
  | missing => .ok missing

/-! ## References -/

/-- How a reference to a language that is not known is reported. -/
def notFoundMessage (reference : String) : String := "Language " ++ reference ++ " not found"

def languageComplaint (k : Known) (c : Change) (name : String) : Except Error (List Complaint) :=
  let d := c.fieldOrNull name
  if d.isNull || k.has d then .ok [] else d.noted.map fun shown => [(name, notFoundMessage shown)]

def posWarnings (p : Project) (c : Change) : Except Error (List String) :=
  match c.fieldOrNull "pos" with
  | .text s =>
    if (p.findPos (.text s)).isSome then .ok []
    else .ok ["Part of speech " ++ Text.quoted s ++ " not found; it must be added first"]
  | .int n =>
    if p.partsOfSpeech.isLive n then .ok []
    else (Datum.int n).noted.map fun shown => ["Part of speech " ++ shown ++ " does not exist"]
  | _ => .ok []

/-- What is said about an operation that there is none of. -/
def unknownComplaint (name : String) : Complaint :=
  ("operation", "Unknown operation '" ++ name ++ "'. Valid: "
    ++ ", ".intercalate Operation.sortedNames)

/-- Complaints and warnings about a change. References are looked at if the rest is in order. -/
def complaints (p : Option (Project × Known)) (c : Change) :
    Except Error (List Complaint × List String) :=
  match Operation.ofName? c.operation with
  | none => .ok ([unknownComplaint c.operation], [])
  | some o => do
    let form ← formComplaints o c
    match form, p with
    | [], some (p, known) => do
      let language ← languageComplaint known c "language"
      let ancestor ← languageComplaint known c "ancestor"
      let warnings ← posWarnings p c
      pure (language ++ ancestor, warnings)
    | form, _ => pure (form, [])

/-- Check changes from the one at `index` on. -/
def checkFrom : Option (Project × Known) → Nat → List Change → Except Error CheckResult
  | _, _, [] => .ok ⟨[], []⟩
  | p, index, c :: rest => do
    let (errors, warnings) ← complaints p c
    let more ← checkFrom (p.map fun q => (q.1, q.2.after c)) (index + 1) rest
    pure ⟨errors.map (fun e => ⟨index, c.operation, e.1, e.2, c.line⟩) ++ more.errors,
      warnings.map (fun w => ⟨index, c.operation, w, c.line⟩) ++ more.warnings⟩

/-- Check the changes of a request, against a project if there is one. -/
def check (r : Request) (p : Option Project) : Except Error CheckResult :=
  checkFrom (p.map fun p => (p, .ofProject p)) 0 r.changes

/-- Whether the languages of a project can be looked up by their names. -/
def hasKeys (p : Project) : Bool := p.languages.items.all fun e => e.2.name.isKey

/-- Check a request. The names of all languages of the project are noted before the first change. -/
def validate (r : Request) (p : Option Project) : Except Error CheckResult :=
  if p.all hasKeys then r.check p else .error .wrongKind

end Neogrammar.Request
