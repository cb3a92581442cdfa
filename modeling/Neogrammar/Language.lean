import Neogrammar.SoundChange.Basic
import Neogrammar.Word

/-!
# Languages

A language has a vocabulary and three collections of rules: those that make surface forms, those
that make phonetic forms, and its sound changes. Its pipelines are compiled afresh for each use.
-/
namespace Neogrammar

/-- A plain rule: a pattern and its replacement template. -/
structure Replace where
  pattern : String
  replacement : String
  deriving DecidableEq, Repr

namespace Replace

def text (r : Replace) : String := r.pattern ++ " > " ++ r.replacement

def quoted (r : Replace) : String :=
  "Replace(pattern=" ++ Text.quoted r.pattern ++ ", replacement=" ++
    Text.quoted r.replacement ++ ")"

def compile (r : Replace) (limits : Limits) : Except Error Substitution :=
  Substitution.ofTexts r.pattern r.replacement r.text limits

/-- A plain rule from two values, which must be texts. -/
def ofValues (pattern replacement : Datum) : Except Error Replace := do
  -- the rule is written down, as errors name it, before it is looked at
  let _ ← pattern.written
  let shown ← replacement.written
  match pattern with
  | .text pattern =>
    match replacement with
    | .text replacement => .ok ⟨pattern, replacement⟩
    | _ =>
      -- a fault of the pattern comes before a template that is no text
      match Pattern.parse pattern.toList with
      | .ok _ => .error .wrongKind
      | .error refusal => .error (.ofRefusal (pattern ++ " > " ++ shown) pattern refusal)
  | _ => .error .wrongKind

end Replace

/-- The three collections of rules. -/
inductive RuleKind where
  | surface
  | phonetic
  | soundChange
  deriving DecidableEq, Repr

namespace RuleKind

def name : RuleKind → String
  | surface => "surface"
  | phonetic => "phonetic"
  | soundChange => "sound_change"

def ofName (s : String) : Except Error RuleKind :=
  match [surface, phonetic, soundChange].find? fun k => k.name == s with
  | some k => .ok k
  | none => .error (.ruleKind s)

end RuleKind

/-- The compiled rules of a language. -/
structure Pipelines where
  toSurface : Pipeline
  toPhonetic : Pipeline
  soundChange : Pipeline
  deriving Repr

structure Language where
  name : Datum
  ancestor : Option Int
  vocab : Slots Word
  surfaceRules : List Replace
  phoneticRules : List Replace
  soundChanges : SoundChanges
  deriving Repr

namespace Language

/-- A language without words and rules. -/
def named (name : Datum) : Language := ⟨name, none, .empty, [], [], .empty⟩

def quoted (l : Language) : String :=
  "Language(" ++ l.name.quoted ++ ", ancestor="
    ++ (match l.ancestor with
      | none => "None"
      | some a => Text.intText a) ++ ")"

/-- Compile a list of plain rules. -/
def compileRules (limits : Limits) : List Replace → Except Error Pipeline
  | [] => .ok []
  | r :: rest => do
    let first ← r.compile limits
    let more ← compileRules limits rest
    pure (first :: more)

def pipelines (l : Language) (limits : Limits) : Except Error Pipelines := do
  let toSurface ← compileRules limits l.surfaceRules
  let toPhonetic ← compileRules limits l.phoneticRules
  let soundChange ← l.soundChanges.compileAll limits
  pure ⟨toSurface, toPhonetic, soundChange⟩

/-- The plain rules of a kind. -/
def rules (l : Language) : RuleKind → Except Error (List Replace)
  | .surface => .ok l.surfaceRules
  | .phonetic => .ok l.phoneticRules
  | .soundChange => .error (.notPlainRules RuleKind.soundChange.name)

/-- Set the plain rules of a kind; sound changes are not among them. -/
def withRules (l : Language) (kind : RuleKind) (rules : List Replace) : Language :=
  match kind with
  | .surface => { l with surfaceRules := rules }
  | .phonetic => { l with phoneticRules := rules }
  | .soundChange => l

/-- Check that a rule compiles. -/
def checkRule (pattern replacement : Datum) : Except Error Replace := do
  let rule ← Replace.ofValues pattern replacement
  let _ ← rule.compile .default
  pure rule

/-- Add a plain rule that compiles; the result is its index with the language after. -/
def addRule (l : Language) (kind : RuleKind) (pattern replacement : Datum) :
    Except Error (Nat × Language) := do
  let rule ← checkRule pattern replacement
  let rules ← l.rules kind
  pure (rules.length, l.withRules kind (rules ++ [rule]))

/-- Replace a plain rule by one that compiles. -/
def alterRule (l : Language) (kind : RuleKind) (index pattern replacement : Datum) :
    Except Error Language := do
  let rule ← checkRule pattern replacement
  let rules ← l.rules kind
  let (_, rules) ← RuleList.alter rules index rule
  pure (l.withRules kind rules)

/-- Put a plain rule that compiles before the one at an index. -/
def insertRule (l : Language) (kind : RuleKind) (index pattern replacement : Datum) :
    Except Error Language := do
  let rule ← checkRule pattern replacement
  let rules ← l.rules kind
  let rules ← RuleList.insert rules index rule
  pure (l.withRules kind rules)

/-- Take a plain rule out. -/
def removeRule (l : Language) (kind : RuleKind) (index : Datum) : Except Error Language := do
  let rules ← l.rules kind
  let (_, rules) ← RuleList.remove rules index
  pure (l.withRules kind rules)

/-- Compute the forms of the words in some cells, in order, up to the first failure. The result is
the cells after, the count of words done, and the failure. -/
def morphCells (ps : Pipelines) :
    List (Option Word) → List (Option Word) × Except Error Nat
  | [] => ([], .ok 0)
  | none :: rest =>
    let (cells, result) := morphCells ps rest
    (none :: cells, result)
  | some w :: rest =>
    match w.morphed ps.toSurface ps.toPhonetic with
    | (w, .error e) => (some w :: rest, .error e)
    | (w, .ok _) =>
      let (cells, result) := morphCells ps rest
      (some w :: cells, result.map (· + 1))

/-- Compute the forms of every word, up to the first failure. -/
def morphAll (l : Language) (ps : Pipelines) : Language × Except Error Nat :=
  let (cells, result) := morphCells ps l.vocab.cells
  ({ l with vocab := ⟨cells⟩ }, result)

end Language
end Neogrammar
