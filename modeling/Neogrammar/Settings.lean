import Neogrammar.Files
import Neogrammar.Project.Basic
import Neogrammar.Yaml.Read

/-!
# Settings

Settings come from a file and from the environment, which has the last word; what neither gives has
a default. They are plain values until `validate` has passed them.
-/
namespace Neogrammar

structure Settings where
  maxIterations : Datum
  growthFactor : Datum
  growthMargin : Datum
  transactional : Datum
  indent : Datum
  deriving Repr

/-- Why settings cannot be used. -/
inductive SettingsError where
  | notPositive (name : String) (value : Datum)
  | negative (name : String) (value : Datum)
  | notBoolean (name : String) (value : Datum)
  | notWhole (name : String) (value : String)
  | noFile (path : String)
  | malformedFile (path : String)
  | notAMap
  /-- A value in the file that cannot be read. -/
  | fault (cause : Yaml.Fault)
  deriving Repr

namespace SettingsError

def message : SettingsError → String
  | notPositive name value => name ++ " must be a positive integer, got " ++ value.quoted
  | negative name value => name ++ " must be a non-negative integer, got " ++ value.quoted
  | notBoolean name value => name ++ " must be a boolean, got " ++ value.quoted
  | notWhole name value => name ++ " must be an integer, got " ++ Text.quoted value
  | noFile path => "Config file not found: " ++ path
  | malformedFile path => "Invalid YAML in " ++ path
  | notAMap => "Config root must be a mapping (dictionary)"
  | fault cause => cause.message

end SettingsError

namespace Settings

def default : Settings :=
  ⟨.int Limits.default.maxIterations, .int Limits.default.growthFactor,
    .int Limits.default.growthMargin, .bool true, .int 2⟩

/-- Settings from the entries of a map; unknown names are ignored. -/
def ofEntries (entries : List (Datum × Datum)) : Settings :=
  let at? (name : String) (fallback : Datum) := (Datum.field? name entries).getD fallback
  ⟨at? "max_iterations" default.maxIterations, at? "growth_factor" default.growthFactor,
    at? "growth_margin" default.growthMargin, at? "transactional_derive" default.transactional,
    at? "indent" default.indent⟩

def toData (s : Settings) : Datum :=
  .record [("max_iterations", s.maxIterations), ("growth_factor", s.growthFactor),
    ("growth_margin", s.growthMargin), ("transactional_derive", s.transactional),
    ("indent", s.indent)]

/-- Whether a value is a whole number, truth values among them, and at least `least`. -/
def isAtLeast (least : Int) (value : Datum) : Bool := value.whole?.any (least ≤ ·)

def isBoolean : Datum → Bool
  | .bool _ => true
  | _ => false

/-- The first fault of the settings. -/
def fault? (s : Settings) : Option SettingsError :=
  if !isAtLeast 1 s.maxIterations then some (.notPositive "max_iterations" s.maxIterations)
  else if !isAtLeast 1 s.growthFactor then some (.notPositive "growth_factor" s.growthFactor)
  else if !isAtLeast 0 s.growthMargin then some (.negative "growth_margin" s.growthMargin)
  else if !isBoolean s.transactional then some (.notBoolean "transactional_derive" s.transactional)
  else if !isAtLeast 0 s.indent then some (.negative "indent" s.indent)
  else none

/-- The configuration that settings amount to. -/
def config (s : Settings) : Config :=
  let whole (d : Datum) (fallback : Int) := d.whole?.getD fallback
  ⟨⟨whole s.maxIterations Limits.default.maxIterations,
      whole s.growthFactor Limits.default.growthFactor,
      whole s.growthMargin Limits.default.growthMargin⟩,
    s.transactional.truthy,
    if s.indent.isNull then none else some (whole s.indent 2).toNat⟩

/-! ## Sources -/

/-- Names and values of the environment. -/
abbrev Environment := List (String × String)

def pathName : String := "CONLANG_EDITOR_CONFIG"

def iterationsName : String := "CONLANG_EDITOR_MAX_ITERATIONS"

def transactionalName : String := "CONLANG_EDITOR_TRANSACTIONAL"

/-- The value of a name that is set and not empty. -/
def setting? (env : Environment) (name : String) : Option String :=
  (env.lookup name).filter (!·.isEmpty)

/-- The words for truth values in the environment. -/
def truthWord? (s : String) : Option Bool :=
  let word := String.ofList (Yaml.lowered (Text.strip s.toList))
  if ["1", "true", "yes", "on"].contains word then some true
  else if ["0", "false", "no", "off"].contains word then some false
  else none

/-- The path of the file: the one that is given, or that of the environment. -/
def path? (env : Environment) (path : Option String) : Option String :=
  match path with
  | some p => some p
  | none => setting? env pathName

/-- The entries of a settings file; an empty or false value counts as an empty map. -/
def readFile (files : Files) (path : String) : Except SettingsError (List (Datum × Datum)) :=
  match files.read? path with
  | none => .error (.noFile (Path.normal path))
  | some text =>
    match Yaml.read text with
    | .error (.malformed _) | .error .unprintable => .error (.malformedFile (Path.normal path))
    | .error fault => .error (.fault fault)
    | .ok d =>
      if !d.truthy then .ok []
      else
        match d with
        | .map es => .ok es
        | _ => .error .notAMap

/-- Let the environment set the limit of passes. -/
def withIterations (env : Environment) (entries : List (Datum × Datum)) :
    Except SettingsError (List (Datum × Datum)) :=
  match setting? env iterationsName with
  | none => .ok entries
  | some raw =>
    match Text.readInt raw with
    | .ok n => .ok (Datum.put "max_iterations" (.int n) entries)
    | .error _ => .error (.notWhole iterationsName raw)

/-- Let the environment set whether derivations are transactional. -/
def withTransactional (env : Environment) (entries : List (Datum × Datum)) :
    Except SettingsError (List (Datum × Datum)) :=
  match setting? env transactionalName with
  | none => .ok entries
  | some raw =>
    match truthWord? raw with
    | some b => .ok (Datum.put "transactional_derive" (.bool b) entries)
    | none => .error (.notBoolean transactionalName (.text raw))

/-- The settings of a file and the environment, validated. -/
def load (files : Files) (env : Environment) (path : Option String) :
    Except SettingsError Settings := do
  let entries ← match path? env path with
    | none => pure []
    | some p => readFile files p
  let entries ← withIterations env entries
  let entries ← withTransactional env entries
  let settings := ofEntries entries
  match settings.fault? with
  | some e => .error e
  | none => pure settings

end Settings
end Neogrammar
