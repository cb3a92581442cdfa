import Neogrammar.Command.Script

/-!
# Loading in commands

Commands report what keeps them from loading a request, settings or a project, and exit with code 1.
A value or pattern that cannot be dealt with at all ends them by its error.
-/
namespace Neogrammar.Script

/-- Print why something is not loaded, and exit. -/
def refuse {α : Type} (label message : String) : Script α := do
  writeLine ("\n  [" ++ label ++ "] " ++ message)
  exit 1

/-- Load the request in a file. -/
def requestIn (files : Files) (path : String) : Script Request := do
  match files.read? path with
  | none => refuse "ERROR" (FileError.noFile (Path.normal path)).message
  | some text =>
    match Request.ofText text with
    | .ok r => pure r
    | .error (.fault cause) => fail (.request (.fault cause))
    | .error e => do
      writeLine ("\n  [PARSE ERROR] " ++ e.message)
      match e.line? with
      | some line => writeLine ("               Line: " ++ Text.natText line)
      | none => pure ()
      exit 1

/-- Load the configuration. -/
def configIn (w : Surroundings) (path : Option String) : Script Config := do
  match Settings.load w.files w.environment path with
  | .ok s => pure s.config
  | .error (.fault cause) => fail (.settings (.fault cause))
  | .error e => refuse "CONFIG ERROR" e.message

/-- Load a project, or start an empty one where `create` is asked for and there is no file. -/
def projectIn (w : Surroundings) (settings : Option String) (path : String) (create : Bool) :
    Script (Project × Config) := do
  let config ← configIn w settings
  if create && !w.files.has path then
    writeLine ("  Project: " ++ Path.normal path ++ " (new)")
    pure (.empty, config)
  else
    match Project.load w.files path with
    | .ok p => do
      writeLine ("  Project: " ++ Path.normal path)
      pure (p, config)
    | .error e =>
      match e with
      | .noFile _ => refuse "ERROR" e.message
      | .fault _ | .tooLong _ | .content (.other _) => fail (.file e)
      | _ => refuse "LOAD ERROR" e.message

end Neogrammar.Script
