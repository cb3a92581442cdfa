import Neogrammar.Pattern.CharTest
import Neogrammar.Pattern.Fault

/-!
# Patterns as trees

The shape of a pattern after reading, how many characters it may span, and the faults that show
only once the whole of it is known.
-/
namespace Neogrammar.Pattern

/-- A place that a pattern asks for without consuming a character. -/
inductive Anchor where
  | start
  | lineStart
  | finish
  | beforeFinalNewline
  | lineEnd
  | wordEdge (ascii : Bool)
  | notWordEdge (ascii : Bool)
  deriving DecidableEq, Repr

/-- How many times a repeat prefers to go round: many, few, or many without giving any back. -/
inductive Greed where
  | greedy
  | lazy
  | possessive
  deriving DecidableEq, Repr

inductive Node where
  | empty
  | char (test : CharTest)
  | seq (first second : Node)
  | alt (first second : Node)
  | group (index : Nat) (body : Node)
  | repeat (greed : Greed) (low : Nat) (high : Option Nat) (body : Node)
  | ahead (negated : Bool) (body : Node)
  | behind (negated : Bool) (width : Nat × Nat) (body : Node)
  | atomic (body : Node)
  | reference (index : Nat) (fold : Fold)
  | branch (index : Nat) (yes no : Node)
  | anchor (place : Anchor)
  deriving DecidableEq, Repr

/-- The greatest span that is told apart. -/
def widthLimit : Nat := 1 <<< 64

/-- The most and the least characters of a span, cut at the limit. -/
def capWidth (w : Nat × Nat) : Nat × Nat := (min w.1 widthLimit, min w.2 widthLimit)

namespace Node

/-- The least and the greatest number of characters that a pattern spans; `widths` tells this of
the groups that references point to. -/
def width (widths : Nat → Nat × Nat) : Node → Nat × Nat
  | empty => (0, 0)
  | char _ => (1, 1)
  | seq a b =>
    let (l, h) := a.width widths
    let (l', h') := b.width widths
    capWidth (l + l', h + h')
  | alt a b =>
    let (l, h) := a.width widths
    let (l', h') := b.width widths
    (min l l', max h h')
  | group _ body => body.width widths
  | .repeat _ low high body =>
    let (l, h) := body.width widths
    match high with
    | some high => capWidth (l * low, h * high)
    | none => capWidth (l * low, if h = 0 then 0 else widthLimit)
  | ahead _ _ => (0, 0)
  | behind _ _ _ => (0, 0)
  | atomic body => body.width widths
  | reference n _ => widths n
  | branch _ yes no =>
    let (l, h) := yes.width widths
    let (l', h') := no.width widths
    (min l l', max h h')
  | anchor _ => (0, 0)

/-- The first fault that shows only in the whole pattern: repeats where none are allowed, and
looking behind by a width that is not fixed. -/
def defect? (noRepeats : Bool) : Node → Option Cause
  | seq a b => (a.defect? noRepeats).or (b.defect? noRepeats)
  | alt a b => (a.defect? noRepeats).or (b.defect? noRepeats)
  | group _ body => body.defect? noRepeats
  | .repeat greed _ _ body =>
    if noRepeats then
      some (.noRepeats (match greed with
        | .greedy => "MAX_REPEAT"
        | .lazy => "MIN_REPEAT"
        | .possessive => "POSSESSIVE_REPEAT"))
    else body.defect? noRepeats
  | ahead _ body => body.defect? noRepeats
  | behind _ width body =>
    if width.1 ≥ 1 <<< 32 then some .lookbehindTooLong
    else if width.1 ≠ width.2 then some .lookbehindWidth
    else body.defect? noRepeats
  | atomic body => body.defect? noRepeats
  | branch _ yes no => (yes.defect? noRepeats).or (no.defect? noRepeats)
  | _ => none

end Node
end Neogrammar.Pattern
