/-!
# Forms of command lines

A form says what a program or one of its commands takes: flags, each with one name or more, and at
most one operand, which is a text or the name of a command.
-/
namespace Neogrammar.CommandLine

/-- What a flag asks for. -/
inductive Role where
  /-- It is given or not. -/
  | switch
  /-- It takes a value, which help texts call by a placeholder. -/
  | value (placeholder : String)
  | help
  | version
  deriving DecidableEq, Repr

structure Flag where
  names : List String
  role : Role
  required : Bool
  about : String
  deriving DecidableEq, Repr

namespace Flag

/-- A flag that may be given and takes no value. -/
def switch (names : List String) (about : String) : Flag := ⟨names, .switch, false, about⟩

/-- The name that a flag goes by. -/
def key (f : Flag) : String := f.names.headD ""

/-- All names of a flag, as messages give them. -/
def allNames (f : Flag) : String := "/".intercalate f.names

end Flag

/-- The operand of a form. -/
inductive Operand where
  | none
  | text (name about : String)
  /-- One of some commands, each with a line about it. -/
  | command (commands : List (String × String))
  deriving DecidableEq, Repr

structure Form where
  program : String
  about : String
  flags : List Flag
  operand : Operand
  deriving DecidableEq, Repr

namespace Form

/-- The flag of a name. -/
def flag? (f : Form) (name : String) : Option Flag := f.flags.find? fun g => g.names.contains name

/-- All names of flags in order. -/
def flagNames (f : Form) : List String := f.flags.flatMap (·.names)

end Form
end Neogrammar.CommandLine
