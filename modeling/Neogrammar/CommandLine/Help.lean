import Neogrammar.CommandLine.Form

/-!
# Help texts

The usage of a form lists its flags and its operand; its help text says what each is for. Lines are
filled up to a fixed width.
-/
namespace Neogrammar.CommandLine

def lineWidth : Nat := 78

/-- The widest column for the names in a help text. -/
def nameColumn : Nat := 24

def blanks (n : Nat) : String := String.ofList (List.replicate n ' ')

/-- Fill lines with words. Lines start at column `start`; `column` is where the current line, with
the words `line` in it, ends. -/
def fill (width start : Nat) : Nat → List String → List String → List String
  | _, [], [] => []
  | _, line, [] => [" ".intercalate line]
  | column, [], word :: rest => fill width start (column + word.length) [word] rest
  | column, line, word :: rest =>
    if column + 1 + word.length ≤ width then
      fill width start (column + 1 + word.length) (line ++ [word]) rest
    else " ".intercalate line :: fill width start (start + word.length) [word] rest

/-- Lines of at most `width` characters with the words of a text. -/
def wrapped (width : Nat) (text : String) : List String :=
  fill width 0 0 [] ((text.splitOn " ").filter fun w => !w.isEmpty)

namespace Flag

/-- A name of a flag with the placeholder of its value. -/
def withValue (f : Flag) (name : String) : List String :=
  match f.role with
  | .value placeholder => [name, placeholder]
  | _ => [name]

/-- How a usage mentions a flag; what may be left out stands in brackets, which are not split. -/
def usage (f : Flag) : List String :=
  let words := f.withValue f.key
  if f.required then words else ["[" ++ " ".intercalate words ++ "]"]

/-- How a help text introduces a flag. -/
def header (f : Flag) : String :=
  ", ".intercalate (f.names.map fun name => " ".intercalate (f.withValue name))

end Flag

/-- The names of commands in braces. -/
def choices (commands : List (String × String)) : String :=
  "\x7b" ++ ",".intercalate (commands.map (·.1)) ++ "\x7d"

namespace Operand

def usage : Operand → List String
  | .none => []
  | .text name _ => [name]
  | .command commands => [choices commands, "..."]

/-- What a help text introduces of an operand. -/
def headers : Operand → List String
  | .none => []
  | .text name _ => [name]
  | .command commands => choices commands :: commands.map (·.1)

end Operand

namespace Form

/-- The usage of a form. If it is longer than a line, the operand starts a line of its own. -/
def usage (f : Form) : String :=
  let opening := "usage: "
  let flags := f.flags.flatMap Flag.usage
  let line := opening ++ " ".intercalate (f.program :: flags ++ f.operand.usage)
  if line.length ≤ lineWidth then line
  else
    let start := opening.length + f.program.length + 1
    let lines := fill lineWidth start opening.length [] (f.program :: flags)
      ++ fill lineWidth start start [] f.operand.usage
    opening ++ ("\n" ++ blanks start).intercalate lines

/-- The column in which explanations start. -/
def aboutColumn (f : Form) : Nat :=
  let headers := f.flags.map Flag.header ++ f.operand.headers
  min ((headers.map String.length).foldl max 0 + 4) nameColumn

/-- An item of a help text: its header, and beside or below it what it is for. -/
def item (column indent : Nat) (header about : String) : String :=
  let room := column - indent - 2
  let lines := ("\n" ++ blanks column).intercalate (wrapped (lineWidth - column) about) ++ "\n"
  if about.isEmpty then blanks indent ++ header ++ "\n"
  else if header.length ≤ room then
    blanks indent ++ header ++ blanks (room - header.length + 2) ++ lines
  else blanks indent ++ header ++ "\n" ++ blanks column ++ lines

/-- A section of a help text, unless it is empty. -/
def helpSection (title : String) (items : List String) : List String :=
  if items.isEmpty then [] else [title ++ ":\n" ++ String.join items]

/-- The help text of a form. -/
def help (f : Form) : String :=
  let column := f.aboutColumn
  let about := if f.about.isEmpty then []
    else ["\n".intercalate (wrapped lineWidth f.about) ++ "\n"]
  let operands := match f.operand with
    | .text name about => [item column 2 name about]
    | _ => []
  let commands := match f.operand with
    | .command commands =>
      item column 2 (choices commands) "" :: commands.map fun c => item column 4 c.1 c.2
    | _ => []
  "\n".intercalate ([f.usage ++ "\n"]
    ++ about
    ++ helpSection "positional arguments" operands
    ++ helpSection "options" (f.flags.map fun g => item column 2 g.header g.about)
    ++ helpSection "commands" commands)

end Form
end Neogrammar.CommandLine
