import Neogrammar.Command.Run

/-!
# The program

The files that a command line names are read before the run and written after it, and the answer to
a question is read when the run has come to it.
-/
namespace Neogrammar.Main

/-- The text of a file, if it can be read. -/
def fileText? (path : String) : IO (Option String) := do
  try
    let text ← IO.FS.readFile path
    pure (some text)
  catch _ => pure none

/-- Whether a path leads anywhere. -/
def isThere (path : String) : IO Bool := do
  try
    let _ ← IO.FS.realPath path
    pure true
  catch _ => pure false

/-- The settings in the environment. -/
def environment : IO Settings.Environment :=
  [Settings.pathName, Settings.iterationsName, Settings.transactionalName].filterMapM fun name => do
    let value ← IO.getEnv name
    pure (value.map fun v => (name, v))

/-- What a run finds that names some paths, before any question. -/
def surroundings (paths : List String) : IO Surroundings := do
  let env ← environment
  let paths := paths ++ (Settings.setting? env Settings.pathName).toList
  let entries ← paths.filterMapM fun path => do
    let text ← fileText? path
    pure (text.map fun t => (path, t))
  let directories ← (paths.map Path.parent).filterM isThere
  pure ⟨⟨entries, directories⟩, env, none⟩

/-- Print what is left of the output, write the files that have changed, and give the exit code. -/
def finish (before : Files) (printed : Nat) (o : Outcome) : IO UInt32 := do
  IO.print (String.ofList (o.output.toList.drop printed))
  for (path, text) in before.changes o.files do
    IO.FS.writeFile path text
  match o.ending with
  | .code n => pure (UInt32.ofNat n)
  | .failed cause => do
    IO.eprintln cause.message
    pure 1

/-- Run what was asked for. A run that ends at a question goes on with the next line. -/
def execute (i : Invocation) (w : Surroundings) : IO UInt32 := do
  let o := i.run w
  match o.ending with
  | .failed .endOfInput => do
    IO.print o.output
    let input ← IO.getStdin
    let line ← input.getLine
    let printed := o.output.length
    if line.isEmpty then finish w.files printed o
    else
      let answer := String.ofList (line.toList.takeWhile (· != '\n'))
      finish w.files printed (i.run { w with answer := some answer })
  | _ => finish w.files 0 o

end Neogrammar.Main

open Neogrammar in
/-- Run the program with the words of its command line. -/
def main (words : List String) : IO UInt32 := do
  match Invocation.ofWords words with
  | .ok invocation => do
    let w ← Main.surroundings invocation.paths
    Main.execute invocation w
  | .error notice => do
    IO.print notice.output
    IO.eprint notice.errors
    pure (UInt32.ofNat notice.code)
