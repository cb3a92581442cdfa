import Neogrammar.Pattern.Tree

/-!
# Matching

A pattern is matched from a position on, and what comes after it is passed along as a continuation:
the first way through the pattern that the continuation accepts is the match. Every repeat is bound
by the rest of the text, since a round that need not be made starts later than the one before it.
-/
namespace Neogrammar.Pattern

/-- Where the groups started and stopped; a group that took no part has no marks. -/
structure Marks where
  starts : List (Option Nat)
  stops : List (Option Nat)
  deriving DecidableEq, Repr

namespace Marks

/-- No marks for groups 0 to `groups`. -/
def none (groups : Nat) : Marks :=
  ⟨List.replicate (groups + 1) Option.none, List.replicate (groups + 1) Option.none⟩

def opened (m : Marks) (n p : Nat) : Marks := { m with starts := m.starts.set n (some p) }

def closed (m : Marks) (n p : Nat) : Marks := { m with stops := m.stops.set n (some p) }

/-- The stretch of a group; a group that was opened anew after it stopped has none. -/
def span? (m : Marks) (n : Nat) : Option (Nat × Nat) :=
  match m.starts[n]?.join, m.stops[n]?.join with
  | some a, some b => if a ≤ b then some (a, b) else Option.none
  | _, _ => Option.none

end Marks

/-- The end of a match and its marks. -/
abbrev Found := Nat × Marks

/-- What comes after a part of a pattern. -/
abbrev Continuation := Nat → Marks → Option Found

/-- The continuation that accepts everything. -/
def accept : Continuation := fun p m => some (p, m)

/-- Whether the character at a position is part of a word; there is none before and after the
text. -/
def wordAt (text : Array Char) (ascii : Bool) (p : Nat) : Bool :=
  match text[p]? with
  | some c => CharKind.word.holds ascii c.toNat
  | none => false

/-- Whether a word starts or ends at a position. An empty text has neither edges nor non-edges. -/
def atWordEdge (text : Array Char) (ascii : Bool) (p : Nat) : Bool :=
  (p != 0 && wordAt text ascii (p - 1)) != wordAt text ascii p

def Anchor.holds (text : Array Char) (p : Nat) : Anchor → Bool
  | start => p == 0
  | lineStart => p == 0 || text[p - 1]? == some '\n'
  | finish => p == text.size
  | beforeFinalNewline => p == text.size || (p + 1 == text.size && text[p]? == some '\n')
  | lineEnd => p == text.size || text[p]? == some '\n'
  | wordEdge ascii => !text.isEmpty && atWordEdge text ascii p
  | notWordEdge ascii => !text.isEmpty && !atWordEdge text ascii p

/-- Whether a repeat may go round once more. -/
def mayRepeat (high : Option Nat) (count : Nat) : Bool :=
  match high with
  | none => true
  | some n => count < n

/-- Go round as often as possible. `last` is where the latest round that was not required began;
no such round begins there again. -/
def repeatGreedy (body : Continuation → Continuation) (low : Nat) (high : Option Nat)
    (k : Continuation) : Nat → Nat → Option Nat → Continuation
  | 0, _, _ => fun _ _ => none
  | fuel + 1, count, last => fun p m =>
    if count < low then body (repeatGreedy body low high k fuel (count + 1) last) p m
    else if mayRepeat high count && last != some p then
      match body (repeatGreedy body low high k fuel (count + 1) (some p)) p m with
      | some found => some found
      | none => k p m
    else k p m

/-- Go round as seldom as possible. -/
def repeatLazy (body : Continuation → Continuation) (low : Nat) (high : Option Nat)
    (k : Continuation) : Nat → Nat → Option Nat → Continuation
  | 0, _, _ => fun _ _ => none
  | fuel + 1, count, last => fun p m =>
    if count < low then body (repeatLazy body low high k fuel (count + 1) last) p m
    else
      match k p m with
      | some found => some found
      | none =>
        if mayRepeat high count && last != some p then
          body (repeatLazy body low high k fuel (count + 1) (some p)) p m
        else none

/-- Go round as often as possible, keeping every round as it is. -/
def repeatPossessive (body : Continuation → Continuation) (low : Nat) (high : Option Nat)
    (k : Continuation) : Nat → Nat → Option Nat → Continuation
  | 0, _, _ => fun _ _ => none
  | fuel + 1, count, last => fun p m =>
    if count < low then
      match body accept p m with
      | some (q, m) => repeatPossessive body low high k fuel (count + 1) last q m
      | none => none
    else if mayRepeat high count && last != some p then
      match body accept p m with
      | some (q, m) => repeatPossessive body low high k fuel (count + 1) (some p) q m
      | none => k p m
    else k p m

/-- The position after the characters from `a` up to `b`, found again at `p`. -/
def matchAgain (text : Array Char) (fold : Fold) (a b p : Nat) : Option Nat :=
  let again := (List.range (b - a)).all fun i =>
    match text[a + i]?, text[p + i]? with
    | some c, some d => fold.lower c.toNat == fold.lower d.toNat
    | _, _ => false
  if again then some (p + (b - a)) else none

/-- Match a pattern and then the continuation. -/
def Node.run (text : Array Char) : Node → Continuation → Continuation
  | .empty, k => k
  | .char test, k => fun p m =>
    match text[p]? with
    | some c => if test.holds c then k (p + 1) m else none
    | none => none
  | .seq a b, k => a.run text (b.run text k)
  | .alt a b, k => fun p m =>
    match a.run text k p m with
    | some found => some found
    | none => b.run text k p m
  | .group n body, k => fun p m => body.run text (fun q m => k q (m.closed n q)) p (m.opened n p)
  | .repeat greed low high body, k => fun p m =>
    let rounds := low + (text.size - p) + 2
    match greed with
    | .greedy => repeatGreedy (body.run text) low high k rounds 0 none p m
    | .lazy => repeatLazy (body.run text) low high k rounds 0 none p m
    | .possessive => repeatPossessive (body.run text) low high k rounds 0 none p m
  | .ahead false body, k => fun p m =>
    match body.run text accept p m with
    | some (_, m) => k p m
    | none => none
  | .ahead true body, k => fun p m =>
    match body.run text accept p m with
    | some _ => none
    | none => k p m
  | .behind false width body, k => fun p m =>
    if p < width.1 then none
    else
      match body.run text accept (p - width.1) m with
      | some (_, m) => k p m
      | none => none
  | .behind true width body, k => fun p m =>
    if p < width.1 then k p m
    else
      match body.run text accept (p - width.1) m with
      | some _ => none
      | none => k p m
  | .atomic body, k => fun p m =>
    match body.run text accept p m with
    | some (q, m) => k q m
    | none => none
  | .reference n fold, k => fun p m =>
    match m.span? n with
    | some (a, b) =>
      match matchAgain text fold a b p with
      | some q => k q m
      | none => none
    | none => none
  | .branch n yes no, k => fun p m =>
    if (m.span? n).isSome then yes.run text k p m else no.run text k p m
  | .anchor place, k => fun p m => if place.holds text p then k p m else none

end Neogrammar.Pattern
