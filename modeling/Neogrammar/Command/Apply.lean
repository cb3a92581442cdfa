import Neogrammar.Command.Load
import Neogrammar.Request.Check
import Neogrammar.Request.Run

/-!
# Checking and applying requests

A request is checked before it is applied, and applied only if the check finds no errors and the
question whether to go on is answered by yes. The project is stored unless the run was a dry one,
was rolled back or changed nothing.
-/
namespace Neogrammar.Script
open Request

/-- The line that a message is about. -/
def lineNote (line : Option Nat) : String :=
  match line with
  | some l => " (line " ++ Text.natText l ++ ")"
  | none => ""

/-- What a message about a change begins with. -/
def changeNote (index : Nat) (operation : String) : String :=
  "Change #" ++ Text.natText (index + 1) ++ " (" ++ operation ++ "): "

def writeFieldError (e : FieldError) : Script Unit := do
  writeLine ("  [ERROR] " ++ changeNote e.index e.operation ++ e.message ++ lineNote e.line)
  writeLine ("          Field: " ++ e.field)

def writeWarning (w : Warning) : Script Unit :=
  writeLine ("  [WARN]  " ++ changeNote w.index w.operation ++ w.message ++ lineNote w.line)

def writeCheckResult (r : CheckResult) : Script Unit := do
  r.errors.forM writeFieldError
  r.warnings.forM writeWarning

/-- The name of the session, if it has one. A name that cannot be written ends the script. -/
def writeSession (r : Request) (quote : String) : Script Unit :=
  if r.sessionName.truthy then do
    let name ← edited r.sessionName.written
    writeLine ("  Session: " ++ quote ++ name ++ quote)
  else pure ()

/-- The language of the request, if it has one. -/
def writeLanguage (r : Request) : Script Unit :=
  if r.language.isNull then pure ()
  else do
    let language ← edited r.language.written
    writeLine ("  Language: " ++ language)

def writeChangeCount (r : Request) : Script Unit :=
  writeLine ("  Changes: " ++ Text.natText r.changes.length)

/-- Check the request in a file, against a project if one is named. -/
def validate (w : Surroundings) (settings : Option String) (file : String)
    (project : Option String) :
    Script Unit := do
  writeLine ("\nValidating " ++ Path.normal file ++ "...")
  let r ← requestIn w.files file
  let p ← project.mapM fun path => projectIn w settings path false
  writeLanguage r
  writeChangeCount r
  writeSession r ""
  let result ← edited (r.validate (p.map (·.1)))
  writeLine "\nValidation Results:"
  writeCheckResult result
  if result.isValid then writeLine "\nValidation passed!"
  else do
    writeLine ("\nFound " ++ Text.natText result.errors.length ++ " error(s), "
      ++ Text.natText result.warnings.length ++ " warning(s)")
    exit 1

/-! ## Applying -/

/-- What `apply` is asked to do. -/
structure ApplyOptions where
  file : String
  project : String
  output : Option String
  create : Bool
  dryRun : Bool
  atomic : Bool
  yes : Bool
  deriving DecidableEq, Repr

/-- Where the result goes. -/
def ApplyOptions.destination (o : ApplyOptions) : String := o.output.getD o.project

/-- Whether an answer means yes. -/
def isYes (answer : String) : Bool := ["y", "yes"].contains (Text.lowerAscii answer)

/-- Check a request and go on only without errors. -/
def requireValid (r : Request) (p : Project) : Script Unit := do
  writeLine "\nValidating..."
  let result ← edited (r.validate (some p))
  if !result.isValid then do
    writeLine "\nValidation failed:"
    writeCheckResult result
    writeLine ("\nFound " ++ Text.natText result.errors.length
      ++ " error(s). Fix errors before applying.")
    exit 1
  else if result.warnings.isEmpty then pure ()
  else do
    writeLine "\nWarnings:"
    result.warnings.forM writeWarning

/-- Ask whether to go on, unless that is settled. -/
def confirm (r : Request) (o : ApplyOptions) (answer : Option String) : Script Unit :=
  if o.dryRun then writeLine "\n[DRY RUN] Simulating execution..."
  else if o.yes then pure ()
  else do
    write ("\nApply " ++ Text.natText r.changes.length ++ " changes to " ++
      Path.normal o.destination
      ++ "? [y/N] ")
    match answer with
    | none => fail .endOfInput
    | some s =>
      if isYes s then pure ()
      else do
        writeLine "Aborted."
        exit 1

def writeChangeResult (total : Int) (r : ChangeResult) : Script Unit := do
  writeLine ("  [" ++ Text.natText (r.index + 1) ++ "/" ++ Text.intText total ++ "] " ++ r.operation
    ++ ": " ++ (if r.success then "OK" else "FAILED") ++ lineNote r.line)
  if r.message.isEmpty then pure () else writeLine ("         " ++ r.message)

/-- Print the outcome of a run. A run is a computation without a clock, which takes no time. -/
def writeRunResult (r : RunResult) : Script Unit := do
  writeLine ""
  r.changes.forM (writeChangeResult r.tally.total)
  writeLine "\nResults:"
  writeLine ("  Total:   " ++ Text.intText r.tally.total)
  writeLine ("  Success: " ++ Text.intText r.tally.success)
  writeLine ("  Failed:  " ++ Text.intText r.tally.failure)
  writeLine ("  Skipped: " ++ Text.intText r.tally.skipped)
  writeLine "  Time:    0.00s"
  if r.rolledBack then writeLine "\nRolled back; the project was not changed." else pure ()

/-- Store the project after a run; the files after it, and how it ends if it fails. -/
def store (files : Files) (s : Session) (path : String) : Script (Files × Option Ending) :=
  match s.project.store s.config.indent files path with
  | (files, .ok _) => do
    writeLine ("\nSaved " ++ Path.normal path)
    pure (files, none)
  | (files, .error (.noDirectory path)) => do
    writeLine ("\n  [SAVE ERROR] " ++ (StoreError.noDirectory path).message)
    pure (files, some (.code 1))
  | (files, .error e) => pure (files, some (.failed (.store e)))

/-- Apply the request in a file to a project. -/
def apply (w : Surroundings) (settings : Option String) (o : ApplyOptions) :
    Script (Files × Ending) := do
  writeLine ("\nLoading " ++ Path.normal o.file ++ "...")
  let r ← requestIn w.files o.file
  let (p, config) ← projectIn w settings o.project o.create
  writeChangeCount r
  writeSession r "\""
  requireValid r p
  confirm r o w.answer
  writeLine ("\n" ++ (if o.dryRun then "Simulating" else "Applying") ++ " changes...")
  let (s, result) := r.run (.ofProject p config) o.dryRun o.atomic
  writeRunResult result
  let ending := Ending.code (if 0 < result.tally.failure then 1 else 0)
  if !o.dryRun && !result.rolledBack && 0 < result.tally.success then do
    let (files, failed) ← store w.files s o.destination
    pure (files, failed.getD ending)
  else pure (w.files, ending)

end Neogrammar.Script
