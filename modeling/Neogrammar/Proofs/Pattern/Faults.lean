import Neogrammar.Proofs.Pattern.Grammar

/-!
# Readers that fail only with faults

Nearly every part of a pattern is refused with a fault alone, which says what is wrong and where.
-/
namespace Neogrammar.Pattern

/-- A refusal with a fault in the text. -/
def Refusal.IsFault : Refusal → Prop
  | .fault _ => True
  | _ => False

/-- A reader that fails only with faults. -/
abbrev Faulty {α : Type} (x : Except Refusal α) : Prop := FailsOnly Refusal.IsFault x

variable {α : Type} {r : Reader} {m : Modes} {g : Groups}

/-! ## Steps -/

namespace Reader

theorem faulty_fail (r : Reader) (cause : Cause) (back : Nat) :
    Faulty (r.fail cause back : Except Refusal α) := .error trivial

theorem faulty_settle (p : Nat) (s : List Char) : Faulty (settle p s) := by
  unfold settle
  split
  · exact .error trivial
  · exact .ok _

theorem faulty_advance (r : Reader) : Faulty r.advance := by
  unfold advance
  split
  · exact .ok _
  · exact faulty_settle _ _
  · exact faulty_settle _ _

theorem faulty_accept (r : Reader) (c : Char) : Faulty (r.accept c) := by
  unfold accept
  split
  · exact r.faulty_advance.bind fun _ _ => .ok _
  · exact .ok _

theorem faulty_takeWhile (p : Char → Bool) (limit : Nat) (r : Reader) :
    Faulty (takeWhile p limit r) := by
  induction limit generalizing r with
  | zero => exact .ok _
  | succ limit ih =>
    unfold takeWhile
    split
    · split
      · exact r.faulty_advance.bind fun r' _ => (ih r').bind fun _ _ => .ok _
      · exact .ok _
    · exact .ok _

theorem faulty_takeUntil (terminator : Char) (what : String) (fuel : Nat) (so : List Char)
    (r : Reader) : Faulty (takeUntil terminator what fuel so r) := by
  induction fuel generalizing so r with
  | zero => exact r.faulty_fail _ _
  | succ fuel ih =>
    unfold takeUntil
    split
    · split <;> exact r.faulty_fail _ _
    · refine r.faulty_advance.bind fun r' _ => ?_
      split
      · split
        · exact r'.faulty_fail _ _
        · exact .ok _
      · exact ih _ _
    · exact r.faulty_advance.bind fun r' _ => ih _ _

theorem faulty_name (r : Reader) (terminator : Char) (what : String) :
    Faulty (r.name terminator what) :=
  (faulty_takeUntil _ _ _ _ r).bind fun _ _ => .ok _

theorem faulty_skipPast (c : Char) (fuel : Nat) (r : Reader) : Faulty (skipPast c fuel r) := by
  induction fuel generalizing r with
  | zero => exact .ok _
  | succ fuel ih =>
    unfold skipPast
    split
    · exact .ok _
    · refine r.faulty_advance.bind fun r' _ => ?_
      split
      · exact .ok _
      · exact ih r'

end Reader

open Reader

/-! ## Escapes and repeats -/

theorem faulty_octalEscape (letter : Char) (r : Reader) : Faulty (octalEscape letter r) := by
  refine (faulty_takeWhile isOctal 2 r).bind fun read _ => ?_
  dsimp only
  split
  · exact read.2.faulty_fail _ _
  · exact .ok _

theorem faulty_codeName (named : String → Option Nat) (r : Reader) : Faulty (codeName named r) := by
  refine (r.faulty_accept _).bind fun opened _ => ?_
  dsimp only
  split
  · exact opened.2.faulty_fail _ _
  · refine (opened.2.faulty_name _ _).bind fun read _ => ?_
    split
    · exact .ok _
    · exact read.2.faulty_fail _ _

theorem faulty_checkBehind (g : Groups) (n : Nat) (r : Reader) : Faulty (g.checkBehind n r) := by
  unfold Groups.checkBehind
  split
  · exact .ok _
  split
  · exact r.faulty_fail _ _
  split
  · exact r.faulty_fail _ _
  · exact .ok _

theorem faulty_reference (m : Modes) (g : Groups) (n digits : Nat) (r : Reader) :
    Faulty (reference m g n digits r) := by
  unfold reference
  split
  · split
    · exact r.faulty_fail _ _
    · exact (faulty_checkBehind g n r).bind fun _ _ => .ok _
  · exact r.faulty_fail _ _

theorem faulty_numberEscape (m : Modes) (g : Groups) (letter : Char) (r : Reader) :
    Faulty (numberEscape m g letter r) := by
  unfold numberEscape
  -- up to three digits are read, and only three octal ones are no reference
  split
  · split
    · refine r.faulty_advance.bind fun r' _ => ?_
      split
      · split
        · refine r'.faulty_advance.bind fun r'' _ => ?_
          dsimp only
          split
          · exact r''.faulty_fail _ _
          · exact .ok _
        · exact faulty_reference _ _ _ _ _
      · exact faulty_reference _ _ _ _ _
    · exact faulty_reference _ _ _ _ _
  · exact faulty_reference _ _ _ _ _

theorem faulty_greedMark (r : Reader) : Faulty (greedMark r) := by
  refine (r.faulty_accept _).bind fun lazy _ => ?_
  dsimp only
  split
  · exact .ok _
  · exact (lazy.2.faulty_accept _).bind fun _ _ => .ok _

theorem faulty_repeatLast (bounds : Bounds) (here : Nat) (items : Items) (r : Reader) :
    Faulty (repeatLast bounds here items r) := by
  match items with
  | [] => exact r.faulty_fail _ _
  | (_, .anchor) :: _ => exact r.faulty_fail _ _
  | (_, .repeated) :: _ => exact r.faulty_fail _ _
  | (node, .plain) :: rest =>
    rw [repeatLast_plain]
    exact (faulty_greedMark r).bind fun _ _ => .ok _

/-! ## Openings of groups -/

theorem faulty_modesOn (fuel : Nat) (on : List Char) (letter : Char) (r : Reader) :
    Faulty (modesOn fuel on letter r) := by
  induction fuel generalizing on letter r with
  | zero => exact r.faulty_fail _ _
  | succ fuel ih =>
    unfold modesOn
    split
    · exact r.faulty_fail _ _
    dsimp only
    split
    · exact r.faulty_fail _ _
    split
    · exact r.faulty_fail _ _
    refine r.faulty_advance.bind fun r' _ => ?_
    split
    · exact .ok _
    · exact .ok _
    · exact .ok _
    · split
      · exact ih _ _ _
      · exact r'.faulty_fail _ _

theorem faulty_modesOff (fuel : Nat) (off : List Char) (letter : Char) (r : Reader) :
    Faulty (modesOff fuel off letter r) := by
  induction fuel generalizing off letter r with
  | zero => exact r.faulty_fail _ _
  | succ fuel ih =>
    unfold modesOff
    split
    · exact r.faulty_fail _ _
    dsimp only
    split
    · exact r.faulty_fail _ _
    refine r.faulty_advance.bind fun r' _ => ?_
    split
    · exact .ok _
    · split
      · exact ih _ _ _
      · exact r'.faulty_fail _ _

theorem faulty_modeSwitchAfter (on : List Char) (stop : Char) (r : Reader) :
    Faulty (modeSwitchAfter on stop r) := by
  unfold modeSwitchAfter
  split
  · exact .ok _
  split
  · exact r.faulty_fail _ _
  split
  · exact .ok _
  split
  · exact r.faulty_fail _ _
  refine r.faulty_advance.bind fun r' _ => ?_
  split
  · exact r'.faulty_fail _ _
  refine (faulty_modesOff _ _ _ r').bind fun off _ => ?_
  dsimp only
  split
  · exact off.2.faulty_fail _ _
  split
  · exact off.2.faulty_fail _ _
  · exact .ok _

theorem faulty_modeSwitch (first : Char) (r : Reader) : Faulty (modeSwitch first r) := by
  rw [modeSwitch_eq]
  split
  · exact faulty_modeSwitchAfter _ _ r
  · exact (faulty_modesOn _ _ _ r).bind fun x _ => faulty_modeSwitchAfter _ _ x.2.2

theorem faulty_checkName (name : String) (r : Reader) : Faulty (checkName name r) := by
  unfold checkName
  split
  · exact .ok _
  · exact r.faulty_fail _ _

theorem faulty_namedOpening (r : Reader) : Faulty (namedOpening r) := by
  refine (r.faulty_accept _).bind fun named _ => ?_
  dsimp only
  split
  · refine (named.2.faulty_name _ _).bind fun name _ => ?_
    exact (faulty_checkName _ name.2).bind fun _ _ => .ok _
  · refine (named.2.faulty_accept _).bind fun refers _ => ?_
    split
    · refine (refers.2.faulty_name _ _).bind fun name _ => ?_
      exact (faulty_checkName _ name.2).bind fun _ _ => .ok _
    · split
      · exact refers.2.faulty_fail _ _
      · exact refers.2.faulty_advance.bind fun r' _ => r'.faulty_fail _ _

theorem faulty_openingAfter (start : Nat) (symbol : Symbol) (r : Reader) :
    Faulty (openingAfter start symbol r) := by
  unfold openingAfter
  split
  · exact faulty_namedOpening r
  · exact .ok _
  · refine (faulty_skipPast _ _ r).bind fun closed _ => ?_
    dsimp only
    split
    · exact .ok _
    · exact closed.2.faulty_fail _ _
  · exact .ok _
  · exact .ok _
  · split
    · exact r.faulty_fail _ _
    · refine r.faulty_advance.bind fun r' _ => ?_
      split
      · exact .ok _
      · exact .ok _
      · exact r'.faulty_fail _ _
  · exact (r.faulty_name _ _).bind fun _ _ => .ok _
  · exact .ok _
  · dsimp only
    split
    · exact r.faulty_fail _ _
    · refine (faulty_modeSwitch _ r).bind fun modes _ => ?_
      split <;> exact .ok _

theorem faulty_opening (r : Reader) : Faulty (opening r) := by
  rw [opening_eq]
  refine (r.faulty_accept _).bind fun special _ => ?_
  split
  · exact .ok _
  · split
    · exact special.2.faulty_fail _ _
    · exact special.2.faulty_advance.bind fun r' _ => faulty_openingAfter _ _ r'

theorem faulty_closing (start : Nat) (r : Reader) : Faulty (closing start r) := by
  refine (r.faulty_accept _).bind fun closed _ => ?_
  dsimp only
  split
  · exact .ok _
  · exact closed.2.faulty_fail _ _

/-! ## Groups -/

theorem faulty_readReference (m : Modes) (g : Groups) (name : String) (r : Reader) :
    Faulty (readReference m g name r) := by
  unfold readReference
  split
  · exact r.faulty_fail _ _
  · split
    · exact r.faulty_fail _ _
    · exact (faulty_checkBehind g _ r).bind fun _ _ => .ok _

theorem faulty_branchGroup (g : Groups) (name : String) (r : Reader) :
    Faulty (branchGroup g name r) := by
  unfold branchGroup
  split
  · split
    · exact .ok _
    · exact r.faulty_fail _ _
  · split
    · split
      · exact r.faulty_fail _ _
      · split
        · exact r.faulty_fail _ _
        · exact .ok _
    · exact r.faulty_fail _ _

theorem faulty_readBranch (g : Groups) (name : String) (r : Reader) :
    Faulty (readBranch g name r) :=
  (faulty_branchGroup g name r).bind fun x _ => (faulty_checkBehind x.2 x.1 r).bind fun _ _ => .ok _

/-- Only a name that is taken keeps a group from being opened. -/
theorem faulty_enclosure? {kind : Opening} {x : Except Refusal Enclosure}
    (h : enclosure? m g r kind = some x) : Faulty x := by
  cases kind with
  | capture name =>
    cases h
    refine FailsOnly.bind ?_ fun _ _ => .ok _
    unfold Groups.opened
    split
    · exact .ok _
    · split
      · exact r.faulty_fail _ _
      · exact .ok _
  | ahead _ | behind _ | atomic | «scoped» _ _ =>
    cases h
    exact .ok _
  | _ => cases h

end Neogrammar.Pattern
