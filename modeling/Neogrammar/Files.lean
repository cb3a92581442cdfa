import Neogrammar.Text.Case
import Neogrammar.Text.Quoted

/-!
# Files

A collection of named texts, in the order in which they came, and what a path says about a file.
Reading takes every break of lines for a line feed.
-/
namespace Neogrammar

namespace Path

/-- Cut a path at its slashes; empty steps and steps to the same place are left out. -/
def steps (path : String) : List (List Char) :=
  (Text.cutAt (· == '/') path.toList).filter fun s => !s.isEmpty && s != ['.']

/-- What a path starts with: nothing, one slash or two. -/
def root (path : String) : List Char :=
  let slashes := path.toList.takeWhile (· == '/')
  if slashes.length = 2 then slashes else slashes.take 1

/-- The shortest way to write a path, steps upwards apart. -/
def normal (path : String) : String :=
  match root path, steps path with
  | [], [] => "."
  | start, parts => String.ofList (start ++ List.intercalate ['/'] parts)

/-- The directory of a path. -/
def parent (path : String) : String :=
  match root path, (steps path).dropLast with
  | [], [] => "."
  | start, parts => String.ofList (start ++ List.intercalate ['/'] parts)

/-- The last step of a path. -/
def name (path : String) : List Char := (steps path).getLast?.getD []

/-- The end of a name from its last point on; a point at either end of the name does not count. -/
def suffix (path : String) : List Char :=
  let n := name path
  let tail := (n.reverse.takeWhile (· != '.')).reverse
  if tail.isEmpty || n.length ≤ tail.length + 1 then [] else '.' :: tail

end Path

/-- Files by their paths, and directories that are known to be there besides those of the files. -/
structure Files where
  entries : List (String × String)
  directories : List String
  deriving DecidableEq, Repr

namespace Files

def empty : Files := ⟨[], []⟩

/-- Every break of lines as a line feed. -/
def unifyBreaks : List Char → List Char
  | '\r' :: '\n' :: rest => '\n' :: unifyBreaks rest
  | '\r' :: rest => '\n' :: unifyBreaks rest
  | c :: rest => c :: unifyBreaks rest
  | [] => []

/-- The text of a file as it is stored. -/
def stored? (f : Files) (path : String) : Option String :=
  (f.entries.find? fun e => Path.normal e.1 == Path.normal path).map (·.2)

/-- The text of a file as it is read. -/
def read? (f : Files) (path : String) : Option String :=
  (f.stored? path).map fun s => String.ofList (unifyBreaks s.toList)

/-- Whether a path names a directory: the current one, a known one, or one that a file lies in. -/
def hasDirectory (f : Files) (path : String) : Bool :=
  Path.normal path == "." || f.directories.any (fun d => Path.normal d == Path.normal path)
    || f.entries.any fun e =>
      (Path.steps path).isPrefixOf (Path.steps e.1).dropLast && Path.root e.1 == Path.root path

/-- Whether a path names a file or directory. -/
def has (f : Files) (path : String) : Bool := (f.stored? path).isSome || f.hasDirectory path

def putEntry (path text : String) : List (String × String) → List (String × String)
  | [] => [(path, text)]
  | e :: rest =>
    if Path.normal e.1 == Path.normal path then (e.1, text) :: rest
    else e :: putEntry path text rest

/-- Write a file, whose directory must be there. -/
def write? (f : Files) (path text : String) : Option Files :=
  if f.hasDirectory (Path.parent path) then
    some { f with entries := putEntry (Path.normal path) text f.entries }
  else none

/-- The entries that are new or have another text than before. -/
def changes (before after : Files) : List (String × String) :=
  after.entries.filter fun e => before.stored? e.1 != some e.2

end Files
end Neogrammar
