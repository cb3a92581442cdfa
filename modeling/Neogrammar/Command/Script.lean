import Neogrammar.Project.File
import Neogrammar.Request.Basic
import Neogrammar.Settings

/-!
# Scripts

A command prints as it goes and may end early. Files are changed at its very end only, so a script
that ends early has changed none.
-/
namespace Neogrammar

/-- An error that no command deals with. -/
inductive Failure where
  | endOfInput
  | settings (cause : SettingsError)
  | file (cause : FileError)
  | request (cause : Request.ReadError)
  | editing (cause : Error)
  | store (cause : StoreError)
  deriving Repr

namespace Failure

def message : Failure → String
  | endOfInput => "EOF when reading a line"
  | settings cause => cause.message
  | file cause => cause.message
  | request cause => cause.message
  | editing cause => cause.message
  | store cause => cause.message

end Failure

/-- How a run ends: with an exit code, or by an error. -/
inductive Ending where
  | code (n : Nat)
  | failed (cause : Failure)
  deriving Repr

/-- What a run does: what it prints, the files after it, and how it ends. -/
structure Outcome where
  output : String
  files : Files
  ending : Ending
  deriving Repr

/-- What a run finds: the files, the environment, and the answer to a question; none where the input
is at its end. -/
structure Surroundings where
  files : Files
  environment : Settings.Environment
  answer : Option String
  deriving Repr

/-- A computation that prints and may end early. -/
abbrev Script (α : Type) := ExceptT Ending (StateM String) α

namespace Script

/-- Print a text. -/
def write (s : String) : Script Unit := modify (· ++ s)

/-- Print a line. -/
def writeLine (s : String) : Script Unit := write (s ++ "\n")

def writeLines (lines : List String) : Script Unit := lines.forM writeLine

/-- End with an exit code. -/
def exit {α : Type} (n : Nat) : Script α := throw (.code n)

/-- End by an error. -/
def fail {α : Type} (cause : Failure) : Script α := throw (.failed cause)

/-- Go on with the value of an edit, or end by its error. -/
def edited {α : Type} : Except Error α → Script α
  | .ok a => pure a
  | .error e => fail (.editing e)

/-- Run a script that gives the files after it and its ending. -/
def run (before : Files) (script : Script (Files × Ending)) : Outcome :=
  match ExceptT.run script "" with
  | (.ok (files, ending), output) => ⟨output, files, ending⟩
  | (.error ending, output) => ⟨output, before, ending⟩

end Script
end Neogrammar
