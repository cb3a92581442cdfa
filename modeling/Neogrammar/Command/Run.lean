import Neogrammar.Command.Apply
import Neogrammar.Command.Basic
import Neogrammar.Command.Show
import Neogrammar.CommandLine.Help
import Neogrammar.Markup

/-!
# Running the program

A command line that cannot be read is answered by the usage of the form in question; help is printed
where it is asked for or no command is given.
-/
namespace Neogrammar

/-- The answer to a command line that asks for no run: an exit code, what is printed, and what is
printed as an error. -/
structure Notice where
  code : Nat
  output : String
  errors : String
  deriving DecidableEq, Repr

namespace Command

/-- A script that changes no files. -/
def reading (files : Files) (script : Script Unit) : Script (Files × Ending) := do
  script
  pure (files, .code 0)

/-- What a command does. -/
def script (w : Surroundings) (settings : Option String) : Command → Script (Files × Ending)
  | .validate file project => reading w.files (Script.validate w settings file project)
  | .apply file project output create dryRun atomic yes =>
    Script.apply w settings ⟨file, project, output, create, dryRun, atomic, yes⟩
  | .show project language =>
    reading w.files do
      let (p, _) ← Script.projectIn w settings project false
      Script.showProject p language
  | .check project =>
    reading w.files do
      let (p, _) ← Script.projectIn w settings project false
      Script.checkProject p
  | .interpret text => reading w.files (Script.writeLine (Markup.interpret text))

end Command

namespace Invocation

/-- Run what was asked for; without a command, print the help text. -/
def run (i : Invocation) (w : Surroundings) : Outcome :=
  match i.command with
  | some command => Script.run w.files (command.script w i.settings)
  | none => ⟨Command.program.form.help, w.files, .code 1⟩

end Invocation

/-- The answer where reading a command line stops. -/
def Notice.ofStop (form : CommandLine.Form) : CommandLine.Stop → Notice
  | .help => ⟨0, form.help, ""⟩
  | .version => ⟨0, Command.versionText ++ "\n", ""⟩
  | .fault f => ⟨2, "", form.usage ++ "\n" ++ form.program ++ ": error: " ++ f.message ++ "\n"⟩

/-- What the words of a command line ask for. -/
def Invocation.ofWords (words : List String) : Except Notice Invocation :=
  match Command.program.read words with
  | .error (form, stop) => .error (.ofStop form stop)
  | .ok call => .ok (.ofCall call)

end Neogrammar
