import Neogrammar.CommandLine.Form
import Neogrammar.Text.Kinds
import Neogrammar.Text.Quoted

/-!
# Reading command lines

The words of a command line are first sorted by what they look like to a form, and then taken one
after another: a flag takes its value from the same word or from the next plain one, and the first
plain word that no flag takes is the operand. A command takes all words after its name.
-/
namespace Neogrammar.CommandLine

/-- What is wrong with a command line. -/
inductive Fault where
  | ambiguous (text : String) (candidates : List String)
  | noValue (flag : Flag)
  /-- A value for a flag that takes none. -/
  | unusedValue (flag : Flag) (value : String)
  | missing (names : List String)
  | unknownCommand (name : String) (known : List String)
  | unrecognized (texts : List String)
  deriving DecidableEq, Repr

namespace Fault

def message : Fault → String
  | ambiguous text candidates =>
    "ambiguous option: " ++ text ++ " could match " ++ ", ".intercalate candidates
  | noValue flag => "argument " ++ flag.allNames ++ ": expected one argument"
  | unusedValue flag value =>
    "argument " ++ flag.allNames ++ ": ignored explicit argument " ++ Text.quoted value
  | missing names => "the following arguments are required: " ++ ", ".intercalate names
  | unknownCommand name known =>
    "argument command: invalid choice: " ++ Text.quoted name ++ " (choose from "
      ++ ", ".intercalate (known.map Text.quoted) ++ ")"
  | unrecognized texts => "unrecognized arguments: " ++ " ".intercalate texts

end Fault

/-- Why reading stops before its end. -/
inductive Stop where
  | help
  | version
  | fault (f : Fault)
  deriving DecidableEq, Repr

/-! ## Single words -/

/-- What a word is to a form. -/
inductive Item where
  | plain (text : String)
  /-- The word after which all words are plain. -/
  | divider
  /-- A flag by a name with two dashes, and what stands after an equals sign. -/
  | long (flag : Flag) (value : Option String)
  /-- A flag by a letter, and what stands after it in the word. -/
  | short (flag : Flag) (rest : List Char)
  /-- A word that looks like a flag of some other form. -/
  | stray (text : String)
  deriving DecidableEq, Repr

def dividerText : String := "--"

/-- A negative number, which is no flag. One line break at its end does not count. -/
def looksNegative (s : List Char) : Bool :=
  let body := if s.getLast? = some '\n' then s.dropLast else s
  match body with
  | '-' :: rest =>
    let isDigit (c : Char) := Text.isDecimal c.toNat
    let fraction := rest.dropWhile isDigit
    match fraction with
    | [] => !rest.isEmpty
    | '.' :: more => !more.isEmpty && more.all isDigit
    | _ => false
  | _ => false

/-- Split a word at its first equals sign. -/
def splitEquals (s : List Char) : List Char × Option String :=
  (s.takeWhile (· != '='),
    if s.contains '=' then some (String.ofList ((s.dropWhile (· != '=')).drop 1)) else none)

/-- A word with dashes that is no flag of a form. -/
def unknownItem (s : String) : Item :=
  if looksNegative s.toList || s.toList.contains ' ' then .plain s else .stray s

namespace Form

/-- The names that a text begins. -/
def completions (f : Form) (start : List Char) : List String :=
  f.flagNames.filter fun name => start.isPrefixOf name.toList

/-- Read a word that starts with two dashes. The name of a flag may be cut short. -/
def longItem (f : Form) (s : String) : Except Fault Item :=
  let (start, value) := splitEquals s.toList
  let item (name : String) (value : Option String) : Item :=
    (f.flag? name).elim (unknownItem s) fun flag => .long flag value
  if (f.flag? s).isSome then .ok (item s none)
  else if (f.flag? (String.ofList start)).isSome then .ok (item (String.ofList start) value)
  else
    match f.completions start with
    | [] => .ok (unknownItem s)
    | [name] => .ok (item name value)
    | names => .error (.ambiguous s names)

/-- What a word is to a form. -/
def itemOf (f : Form) (s : String) : Except Fault Item :=
  match s.toList with
  | '-' :: '-' :: _ => f.longItem s
  | '-' :: c :: rest =>
    .ok ((f.flag? (String.ofList ['-', c])).elim (unknownItem s) fun flag => .short flag rest)
  | _ => .ok (.plain s)

/-- The words of a command line with what they are to a form. -/
def itemsOf (f : Form) : List String → Except Fault (List (String × Item))
  | [] => .ok []
  | s :: rest =>
    if s = dividerText then .ok ((s, .divider) :: rest.map fun t => (t, .plain t))
    else do
      let item ← f.itemOf s
      let items ← f.itemsOf rest
      pure ((s, item) :: items)

end Form

/-! ## Flags and operands -/

/-- What a flag takes: itself or a cluster of short flags with the value of the last, a rest that is
no flag, and whether the next word was its value. -/
structure Taken where
  given : List (Flag × Option String)
  stray : List String
  tookNext : Bool
  deriving DecidableEq, Repr

namespace Taken

/-- A flag with nothing after it in its word; `next` is the next word if it is plain. -/
def alone (next : Option String) (flag : Flag) : Except Fault Taken :=
  match flag.role, next with
  | .value _, some s => .ok ⟨[(flag, some s)], [], true⟩
  | .value _, none => .error (.noValue flag)
  | _, _ => .ok ⟨[(flag, none)], [], false⟩

/-- A flag with a value in its word. -/
def withValue (flag : Flag) (value : String) : Except Fault Taken :=
  match flag.role with
  | .value _ => .ok ⟨[(flag, some value)], [], false⟩
  | _ => .error (.unusedValue flag value)

/-- A flag by a letter, and what stands after it in its word: a value, or more flags. -/
def cluster (f : Form) (next : Option String) : Flag → List Char → Except Fault Taken
  | flag, [] => alone next flag
  | flag, '=' :: value => withValue flag (String.ofList value)
  | flag, c :: rest =>
    match flag.role with
    | .value _ => withValue flag (String.ofList (c :: rest))
    | _ =>
      if c = '-' then .error (.unusedValue flag (String.ofList (c :: rest)))
      else
        match f.flag? (String.ofList ['-', c]) with
        | none => .ok ⟨[(flag, none)], [String.ofList ('-' :: c :: rest)], false⟩
        | some other =>
          match cluster f next other rest with
          | .ok t => .ok { t with given := (flag, none) :: t.given }
          | .error e => .error e

end Taken

/-- What a command line gives to a form. `following` holds the words after the name of a command. -/
structure Reading where
  given : List (Flag × Option String)
  operand : Option String
  following : List String
  extras : List String
  deriving DecidableEq, Repr

namespace Reading

def empty : Reading := ⟨[], none, [], []⟩

/-- Whether a flag was given. -/
def has (r : Reading) (key : String) : Bool := r.given.any fun g => g.1.key == key

/-- The value of a flag; the last one counts. -/
def value? (r : Reading) (key : String) : Option String :=
  (r.given.reverse.find? fun g => g.1.key == key).bind (·.2)

end Reading

/-- The first flag that ends the reading. -/
def stopOf : List (Flag × Option String) → Option Stop
  | [] => none
  | (flag, _) :: rest =>
    match flag.role with
    | .help => some .help
    | .version => some .version
    | _ => stopOf rest

/-- The text of the next word if it is plain. -/
def nextPlain : List (String × Item) → Option String
  | (_, .plain s) :: _ => some s
  | _ => none

namespace Form

/-- What an item takes as a flag, if it is one. -/
def flagTaken? (f : Form) (next : Option String) : Item → Option (Except Fault Taken)
  | .long flag (some value) => some (Taken.withValue flag value)
  | .long flag none => some (Taken.alone next flag)
  | .short flag rest => some (Taken.cluster f next flag rest)
  | _ => none

/-- Take items one after another. -/
def readItems (f : Form) : Reading → List (String × Item) → Except Stop Reading
  | r, [] => .ok r
  | r, (s, item) :: rest =>
    match f.flagTaken? (nextPlain rest) item with
    | some (.error e) => .error (.fault e)
    | some (.ok t) =>
      match stopOf t.given with
      | some stop => .error stop
      | none =>
        let r := { r with given := r.given ++ t.given, extras := r.extras ++ t.stray }
        match t.tookNext, rest with
        | true, _ :: rest => readItems f r rest
        | _, rest => readItems f r rest
    | none =>
      let extra := { r with extras := r.extras ++ [s] }
      match f.operand, r.operand, item, rest with
      | .text _ _, none, .divider, (t, _) :: rest => readItems f { r with operand := some t } rest
      | .text _ _, none, .plain _, (_, .divider) :: rest =>
          readItems f { r with operand := some s } rest
      | .text _ _, none, .plain _, rest => readItems f { r with operand := some s } rest
      | .command _, none, .divider, [] => .ok extra
      | .command _, none, .divider, rest =>
          .ok { r with operand := some s, following := rest.map (·.1) }
      | .command _, none, .plain _, rest =>
          .ok { r with operand := some s, following := rest.map (·.1) }
      | _, _, _, rest => readItems f extra rest

/-- What must be given and is not. -/
def missing (f : Form) (r : Reading) : List String :=
  (match f.operand, r.operand with
    | .text name _, none => [name]
    | _, _ => [])
    ++ (f.flags.filter fun g => g.required && !r.has g.key).map Flag.allNames

/-- Read the words of a command line. -/
def read (f : Form) (words : List String) : Except Stop Reading :=
  match f.itemsOf words with
  | .error e => .error (.fault e)
  | .ok items => do
    let r ← f.readItems .empty items
    match f.missing r with
    | [] => pure r
    | names => .error (.fault (.missing names))

end Form

/-! ## Programs -/

/-- A program with commands: its own form, and the form of each command. -/
structure Program where
  form : Form
  version : String
  commands : List (String × Form)

/-- What a command line gives to a program: what its own form reads, and a command with what it
reads. -/
structure Call where
  own : Reading
  command : Option (String × Reading)

namespace Program

/-- Read a command line. Where reading stops, it says in which form. -/
def read (p : Program) (words : List String) : Except (Form × Stop) Call := do
  let own ← (p.form.read words).mapError fun stop => (p.form, stop)
  let command ← match own.operand with
    | none => pure none
    | some name =>
      match p.commands.lookup name with
      | none => .error (p.form, .fault (.unknownCommand name (p.commands.map (·.1))))
      | some form => do
        let r ← (form.read own.following).mapError fun stop => (form, stop)
        pure (some (name, r))
  match own.extras ++ (command.map (·.2.extras)).getD [] with
  | [] => pure ⟨own, command⟩
  | extras => .error (p.form, .fault (.unrecognized extras))

end Program
end Neogrammar.CommandLine
