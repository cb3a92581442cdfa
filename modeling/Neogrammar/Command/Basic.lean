import Neogrammar.CommandLine.Reading

/-!
# Commands

The commands of the program, the forms of their command lines, and what a call asks for.
-/
namespace Neogrammar

/-- A request is checked or applied; a project is shown or checked; a text with markup is written
out. -/
inductive Command where
  | validate (file : String) (project : Option String)
  | apply (file project : String) (output : Option String) (create dryRun atomic yes : Bool)
  | show (project : String) (language : Option String)
  | check (project : String)
  | interpret (text : String)
  deriving DecidableEq, Repr

/-- A command, if there is one, and the settings file that goes with it. -/
structure Invocation where
  settings : Option String
  command : Option Command
  deriving DecidableEq, Repr

namespace Command
open CommandLine

def programName : String := "conlang-batch"

def versionText : String := "conlang-batch (conlang-editor 0.1.0)"

def helpFlag : Flag := ⟨["-h", "--help"], .help, false, "show this help message and exit"⟩

def versionFlag : Flag := ⟨["--version"], .version, false, "show program's version number and exit"⟩

def verboseFlag : Flag := .switch ["--verbose", "-v"] "Log debug output to stderr"

def configFlag : Flag := ⟨["--config"], .value "CONFIG", false, "YAML engine configuration file"⟩

def projectFlag (required : Bool) (about : String) : Flag :=
  ⟨["--project"], .value "PROJECT", required, about⟩

def outputFlag : Flag :=
  ⟨["--output", "-o"], .value "OUTPUT", false,
    "Write the result here instead of over the project file"⟩

def createFlag : Flag :=
  .switch ["--create"] "Start an empty project if the project file does not exist"

def dryRunFlag : Flag := .switch ["--dry-run"] "Simulate execution without making changes"

def atomicFlag : Flag := .switch ["--atomic"] "Stop at the first failure and discard every change"

def yesFlag : Flag := .switch ["--yes", "-y"] "Skip confirmation prompt"

def languageFlag : Flag :=
  ⟨["--language", "-l"], .value "LANGUAGE", false, "Language index or name"⟩

/-- The form of a command, whose flags besides `--help` are given. -/
def formOf (name : String) (flags : List Flag) (operand : Operand) : Form :=
  ⟨programName ++ " " ++ name, "", helpFlag :: flags, operand⟩

def requestOperand : Operand := .text "file" "YAML file containing change request"

def validateForm : Form :=
  formOf "validate"
    [projectFlag false "Also check language and part-of-speech references against this project"]
    requestOperand

def applyForm : Form :=
  formOf "apply"
    [projectFlag true "Project file (.json, .yaml or .yml)", outputFlag, createFlag, dryRunFlag,
      atomicFlag, yesFlag]
    requestOperand

def showForm : Form := formOf "show" [projectFlag true "Project file", languageFlag] .none

def checkForm : Form := formOf "check" [projectFlag true "Project file"] .none

def interpretForm : Form := formOf "interpret" [] (.text "text" "Text to interpret")

/-- The commands by name, each with a line about it and its form. -/
def listing : List (String × String × Form) :=
  [("validate", "Validate a change request file", validateForm),
    ("apply", "Apply changes from a request file", applyForm),
    ("show", "Show the languages of a project, or one language in detail", showForm),
    ("check", "Check a project for consistency problems", checkForm),
    ("interpret", "Turn \x7bdigraph\x7d and \\diacritic commands into glyphs", interpretForm)]

def program : Program :=
  ⟨⟨programName, "Batch change request tool for constructed-language projects",
      [helpFlag, versionFlag, verboseFlag, configFlag],
      .command (listing.map fun c => (c.1, c.2.1))⟩,
    versionText, listing.map fun c => (c.1, c.2.2)⟩

/-- The command of a name with what its form read. -/
def ofReading (name : String) (r : Reading) : Option Command :=
  let has (f : Flag) := r.has f.key
  let project := r.value? "--project"
  let operand := r.operand.getD ""
  match name with
  | "validate" => some (.validate operand project)
  | "apply" =>
    some (.apply operand (project.getD "") (r.value? outputFlag.key)
      (has createFlag) (has dryRunFlag)
      (has atomicFlag) (has yesFlag))
  | "show" => some (.show (project.getD "") (r.value? languageFlag.key))
  | "check" => some (.check (project.getD ""))
  | "interpret" => some (.interpret operand)
  | _ => none

end Command

namespace Invocation

/-- What a call asks for. -/
def ofCall (call : CommandLine.Call) : Invocation :=
  ⟨call.own.value? Command.configFlag.key, call.command.bind fun c => Command.ofReading c.1 c.2⟩

/-- The paths that an invocation names. -/
def paths (i : Invocation) : List String :=
  i.settings.toList ++
    match i.command with
    | some (.validate file project) => file :: project.toList
    | some (.apply file project output _ _ _ _) => file :: project :: output.toList
    | some (.show project _) | some (.check project) => [project]
    | _ => []

end Invocation
end Neogrammar
