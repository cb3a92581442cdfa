import Neogrammar.SoundChange.Categories
import Neogrammar.Slots
import Neogrammar.Substitution

/-!
# Sound changes

A sound change turns its target into its replacement where the environment, written around a
marker, fits. It is compiled into substitutions whose patterns keep what stands before and after in
two named groups. A replacement that mentions a category is paired with the target place by place,
up to the shortest category mentioned on either side.
-/
namespace Neogrammar

structure SoundChange where
  target : Datum
  replacement : Datum
  environment : String
  deriving Repr

namespace SoundChange

def text (s : SoundChange) : String :=
  s.target.display ++ " > " ++ s.replacement.display ++ " / " ++ s.environment

def quoted (s : SoundChange) : String :=
  "SoundChange(target=" ++ s.target.quoted ++ ", replacement=" ++ s.replacement.quoted
    ++ ", environment=" ++ Text.quoted s.environment ++ ")"

def same (s t : SoundChange) : Bool :=
  s.target.same t.target && s.replacement.same t.replacement && s.environment == t.environment

/-- The marker for the place of the target in an environment. -/
def marker : Char := '_'

/-- The parts of an environment before and after its only marker. -/
def sidesOf (environment : String) : Except Error (String × String) :=
  match Text.cutAt (· == marker) environment.toList with
  | [before, after] => .ok (String.ofList before, String.ofList after)
  | _ => .error (.environment environment)

def beforeGroup : String := "ctx_before"

def afterGroup : String := "ctx_after"

/-- A pattern in a named group. -/
def inGroup (name : String) (pattern : List Char) : List Char :=
  ['(', '?', 'P', '<'] ++ name.toList ++ ['>'] ++ pattern ++ [')']

/-- A template reference to a named group. -/
def groupReference (name : String) : List Char := ['\\', 'g', '<'] ++ name.toList ++ ['>']

/-- A text as a template that stands for that text alone. -/
def verbatim (s : List Char) : List Char :=
  s.flatMap fun c => if c = '\\' then ['\\', '\\'] else [c]

/-- The template around a literal replacement. -/
def unitTemplate (replacement : List Char) : List Char :=
  groupReference beforeGroup ++ verbatim replacement ++ groupReference afterGroup

/-- The pattern of a target between what stands before and after. -/
def unitPattern (before target after : List Char) : List Char :=
  inGroup beforeGroup before ++ target ++ inGroup afterGroup after

/-- One substitution for a target pattern and a literal replacement. -/
def substitutionFor (t : Categories) (s : SoundChange) (before after : String)
    (target replacement : List Char) (limits : Limits) : Except Error Substitution := do
  let before ← t.expand (.text before)
  let after ← t.expand (.text after)
  Substitution.ofTexts (String.ofList (unitPattern before target after))
    (String.ofList (unitTemplate replacement)) s.text limits

/-- The length of the shortest of some categories. -/
def shortest (t : Categories) (keys : List Char) : Nat :=
  ((keys.map fun k => ((t.find? k).getD []).length).min?).getD 0

/-- The substitution at one place of a paired sound change. -/
def compilePair (t : Categories) (s : SoundChange) (before after : String) (limits : Limits)
    (index : Nat) : Except Error Substitution := do
  let target ← t.resolve s.target index true
  let replacement ← t.resolve s.replacement index false
  substitutionFor t s before after target replacement limits

/-- The substitutions of a sound change. -/
def compile (t : Categories) (s : SoundChange) (limits : Limits) : Except Error Pipeline := do
  let (before, after) ← sidesOf s.environment
  let paired ← t.referenced s.replacement
  if paired.isEmpty then do
    let target ← t.expand s.target
    match s.replacement with
    | .text replacement => do
      let sub ← substitutionFor t s before after target replacement.toList limits
      pure [sub]
    | _ => .error .wrongKind
  else do
    let keys ← t.referenced s.target
    if keys.isEmpty then .error (.target s.target)
    else
      (List.range (min (shortest t keys) (shortest t paired))).mapM
        (compilePair t s before after limits)

end SoundChange

/-- The categories of a language and the sound changes that use them. -/
structure SoundChanges where
  categories : Categories
  rules : List SoundChange
  deriving Repr

namespace SoundChanges

def empty : SoundChanges := ⟨.empty, []⟩

def compile (c : SoundChanges) (s : SoundChange) (limits : Limits) : Except Error Pipeline :=
  s.compile c.categories limits

/-- The substitutions of all rules in order. -/
def compileRules (t : Categories) (limits : Limits) : List SoundChange → Except Error Pipeline
  | [] => .ok []
  | s :: rest => do
    let first ← s.compile t limits
    let more ← compileRules t limits rest
    pure (first ++ more)

def compileAll (c : SoundChanges) (limits : Limits) : Except Error Pipeline :=
  compileRules c.categories limits c.rules

def addCategory (c : SoundChanges) (key content : Datum) : Except Error SoundChanges := do
  let categories ← c.categories.add key content
  pure { c with categories }

def removeCategory (c : SoundChanges) (key : Datum) : Except Error (List Datum × SoundChanges) := do
  let (graphemes, categories) ← c.categories.remove key
  pure (graphemes, { c with categories })

/-- Add a rule that compiles; the result is its index with the rules after. -/
def addRule (c : SoundChanges) (s : SoundChange) : Except Error (Nat × SoundChanges) := do
  let _ ← c.compile s .default
  pure (c.rules.length, { c with rules := c.rules ++ [s] })

/-- Replace a rule by one that compiles; the result is the old one with the rules after. -/
def alterRule (c : SoundChanges) (index : Datum) (s : SoundChange) :
    Except Error (SoundChange × SoundChanges) := do
  let _ ← c.compile s .default
  let (old, rules) ← RuleList.alter c.rules index s
  pure (old, { c with rules })

/-- Put a rule that compiles before the one at an index. -/
def insertRule (c : SoundChanges) (index : Datum) (s : SoundChange) :
    Except Error SoundChanges := do
  let _ ← c.compile s .default
  let rules ← RuleList.insert c.rules index s
  pure { c with rules }

/-- Take a rule out; the result is that rule with the rules after. -/
def removeRule (c : SoundChanges) (index : Datum) : Except Error (SoundChange × SoundChanges) := do
  let (old, rules) ← RuleList.remove c.rules index
  pure (old, { c with rules })

def same (c d : SoundChanges) : Bool :=
  c.categories.same d.categories && c.rules.length == d.rules.length
    && (c.rules.zip d.rules).all fun p => p.1.same p.2

def quoted (c : SoundChanges) : String :=
  "SoundChangeSet(" ++ c.categories.quoted ++ ", ["
    ++ ", ".intercalate (c.rules.map SoundChange.quoted) ++ "])"

end SoundChanges
end Neogrammar
