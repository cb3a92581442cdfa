import Neogrammar.Files
import Neogrammar.Json.Reader
import Neogrammar.Json.Writer
import Neogrammar.Project.Data
import Neogrammar.Yaml.Read
import Neogrammar.Yaml.Write

/-!
# Project files

A project is saved as YAML if the path ends in `.yaml` or `.yml`, in letters of any case, and as
JSON otherwise. A value that JSON has no form for ends the text before it, as does a number past the
digit limit, which leaves nothing of a YAML text. The directory of the path must be there.
-/
namespace Neogrammar

inductive Format where
  | json
  | yaml
  deriving DecidableEq, Repr

/-- The format that a path asks for. -/
def Format.ofPath (path : String) : Format :=
  let suffix := Yaml.lowered (Path.suffix path)
  if suffix == ".yaml".toList || suffix == ".yml".toList then .yaml else .json

/-- Why a file gives no project. -/
inductive FileError where
  | noFile (path : String)
  | malformed (format : Format) (path : String)
  | content (cause : ImportError)
  /-- A value that cannot be read. -/
  | fault (cause : Yaml.Fault)
  | tooLong (digits : Nat)
  deriving Repr

namespace FileError

def message : FileError → String
  | noFile path => "File not found: " ++ path
  | malformed .json path => "Invalid JSON in " ++ path
  | malformed .yaml path => "Invalid YAML in " ++ path
  | content cause => cause.message
  | fault cause => cause.message
  | tooLong digits => tooLongMessage digits

end FileError

/-- Why a project is not stored, or not in full. -/
inductive StoreError where
  | noDirectory (path : String)
  /-- A value that is not written, which ends the text. -/
  | cut (lack : Json.Lack)
  deriving DecidableEq, Repr

namespace StoreError

def message : StoreError → String
  | noDirectory path =>
    "Cannot write project to " ++ path ++ ": [Errno 2] No such file or directory: "
      ++ Text.quoted path
  | cut .form => Error.wrongKind.message
  | cut .digits => NumberError.unwritable.message

end StoreError

namespace Project

/-- The text of a project, and what ends it before all of the project is in it, if anything does. -/
def save (p : Project) (format : Format) (indent : Option Nat) : Json.Written :=
  match format with
  | .yaml =>
    match p.toData with
    | .map es =>
      if (Datum.map es).isWritable then .of (Yaml.write es).toList else .cut .digits
    | _ => .cut .form
  | .json =>
    let layout := match indent with
      | none => Json.Layout.line
      | some width => .indented width
    (Json.write layout 0 p.toData).andThen (.of ['\n'])

/-- Store a project under a path. A value that is not written ends the file. -/
def store (p : Project) (indent : Option Nat) (files : Files) (path : String) :
    Files × Except StoreError Unit :=
  let w := p.save (.ofPath path) indent
  match files.write? path (String.ofList w.text) with
  | none => (files, .error (.noDirectory (Path.normal path)))
  | some files =>
    match w.lack with
    | none => (files, .ok ())
    | some lack => (files, .error (.cut lack))

/-- The plain data in a text. -/
def readText (path text : String) : Except FileError Datum :=
  match Format.ofPath path with
  | .yaml =>
    match Yaml.read text with
    | .ok d => .ok d
    | .error (.malformed _) | .error .unprintable => .error (.malformed .yaml (Path.normal path))
    | .error fault => .error (.fault fault)
  | .json =>
    match Json.read text with
    | .ok d => .ok d
    | .error .malformed => .error (.malformed .json (Path.normal path))
    | .error (.tooLong digits) => .error (.tooLong digits)

/-- The project in a text. -/
def ofText (path text : String) : Except FileError Project := do
  let d ← readText path text
  match Project.ofData d with
  | .ok p => pure p
  | .error e => .error (.content e)

/-- Load a project. -/
def load (files : Files) (path : String) : Except FileError Project :=
  match files.read? path with
  | none => .error (.noFile (Path.normal path))
  | some text => ofText path text

end Project
end Neogrammar
