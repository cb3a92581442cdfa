import Neogrammar.Error
import Neogrammar.Pattern.Replace

/-!
# Substitutions

A substitution is a pattern with a replacement template. Applied once it replaces every match; run
to its fixpoint it is applied until the text stops changing, within limits on passes and length. A
pipeline runs substitutions one after another.
-/
namespace Neogrammar

/-- Bounds on one run: the count of passes, and the length of the text against its first length. -/
structure Limits where
  maxIterations : Int
  growthFactor : Int
  growthMargin : Int
  deriving DecidableEq, Repr

namespace Limits

def default : Limits := ⟨1000, 16, 256⟩

/-- The greatest length that a text of `length` characters may grow to. -/
def maxLength (l : Limits) (length : Nat) : Int :=
  max (length * l.growthFactor) (length + l.growthMargin)

end Limits

/-- A pattern and a template that were read without a fault, with the limits for their runs. -/
structure Substitution where
  pattern : String
  replacement : String
  limits : Limits
  compiled : Pattern.Compiled
  template : Pattern.Template
  deriving Repr

namespace Substitution

/-- The template for a replacement text; a text without a backslash stands for itself. -/
def readTemplate (c : Pattern.Compiled) (replacement : String) :
    Except Pattern.Refusal Pattern.Template :=
  if replacement.toList.contains '\\' then Pattern.template c replacement.toList
  else .ok [.text replacement.toList]

/-- Read a substitution; `rule` names it in errors. -/
def ofTexts (pattern replacement rule : String) (limits : Limits) : Except Error Substitution :=
  match Pattern.parse pattern.toList with
  | .error refusal => .error (.ofRefusal rule pattern refusal)
  | .ok compiled =>
    match readTemplate compiled replacement with
    | .error refusal => .error (.ofRefusal rule replacement refusal)
    | .ok template => .ok ⟨pattern, replacement, limits, compiled, template⟩

/-- How a substitution is named where no rule names it. -/
def label (pattern replacement : String) : String := pattern ++ " > " ++ replacement

/-- Two substitutions are the same rule if pattern and replacement are. -/
def same (s t : Substitution) : Bool := s.pattern == t.pattern && s.replacement == t.replacement

def quoted (s : Substitution) : String :=
  "Substitution(" ++ Text.quoted s.pattern ++ ", " ++ Text.quoted s.replacement ++ ")"

/-- Replace every match once. -/
def applyOnce (s : Substitution) (text : String) : String :=
  String.ofList (s.compiled.replace s.template text.toList)

/-- Pass after pass, at most `left` more after `done` ones, with `bound` the greatest length. -/
def passes (s : Substitution) (bound : Int) : Nat → Nat → String → Except Error String
  | 0, _, _ => .error (.diverges s.pattern s.limits.maxIterations none)
  | left + 1, done, text =>
    let result := s.applyOnce text
    if result = text then .ok result
    else if result.length > bound then
      .error (.diverges s.pattern ((done + 1 : Nat) : Int) (some bound))
    else s.passes bound left (done + 1) result

/-- Run to the fixpoint. -/
def apply (s : Substitution) (text : String) : Except Error String :=
  s.passes (s.limits.maxLength text.length) s.limits.maxIterations.toNat 0 text

end Substitution

/-- Substitutions in the order in which they run. -/
abbrev Pipeline := List Substitution

namespace Pipeline

/-- Run each substitution to its fixpoint. -/
def runText : Pipeline → String → Except Error String
  | [], text => .ok text
  | s :: rest, text => do
    let result ← s.apply text
    runText rest result

/-- Run a pipeline over a value: only a text can be changed, and only the empty pipeline takes
anything else. -/
def run (p : Pipeline) : Datum → Except Error Datum
  | .text s => (runText p s).map .text
  | d => if p.isEmpty then .ok d else .error .wrongKind

@[simp] theorem runText_nil (text : String) : runText [] text = .ok text := rfl

@[simp] theorem run_nil (d : Datum) : run [] d = .ok d := by cases d <;> rfl

end Pipeline
end Neogrammar
