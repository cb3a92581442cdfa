import Mathlib.Algebra.Group.Nat.Defs
import Mathlib.Data.List.Infix
import Mathlib.Data.List.TakeWhile
import Neogrammar.Proofs.Outcome
import Neogrammar.Proofs.Text.Written
import Neogrammar.Yaml.ScalarText

/-!
# Readers go forward

A reader comes to a later place of its text, or it fails. It fails for its notation, but for one
kind of cause: a number in the notation that is too large to be taken.
-/
namespace Neogrammar.Yaml

/-! ## Numbers of the notation -/

/-- A number in a text is too large, in well-formed notation: the code of an escape, or the number
of a version, which stands behind the name of its directive and maybe another number. -/
inductive Spoils (s : List Char) : Fault → Prop
  | escape {digits : List Char} {code : Nat} {f : Fault} (there : '\\' :: 'U' :: digits <:+: s)
      (value : hexNumeral? 8 digits = some code) (beyond : characterOf code = .error f) :
      Spoils s f
  | version {between digits : List Char} (there : "%YAML".toList ++ between ++ digits <:+: s)
      (apart : ∀ c ∈ between, c = ' ' ∨ c = '.' ∨ c.isDigit) (number : ∀ c ∈ digits, c.isDigit)
      (long : Text.digitLimit < digits.length) : Spoils s (.tooLong digits.length)

theorem Spoils.mono {s t : List Char} {f : Fault} (h : Spoils s f) (le : s <:+: t) :
    Spoils t f := by
  cases h with
  | escape there value beyond => exact .escape (there.trans le) value beyond
  | version there apart number long => exact .version (there.trans le) apart number long

def IsMalformed (f : Fault) : Prop := ∃ line, f = .malformed line

/-- Bad notation, or a number in it that is too large. -/
def Spoiled (s : List Char) (f : Fault) : Prop := IsMalformed f ∨ Spoils s f

theorem Spoiled.malformed {s : List Char} (line : Nat) : Spoiled s (.malformed line) :=
  .inl ⟨line, rfl⟩

theorem Spoiled.mono {s t : List Char} {f : Fault} (h : Spoiled s f) (le : s <:+: t) :
    Spoiled t f := h.imp id fun h => h.mono le

theorem hexValue?_lt {c : Char} {d : Nat} (h : Json.hexValue? c = some d) : d < 16 := by
  unfold Json.hexValue? at h
  split_ifs at h with decimal small capital
  · have : c.toNat ≤ '9'.toNat := decimal.2
    cases h
    simp only [Char.reduceToNat] at *
    omega
  · have : c.toNat ≤ 'f'.toNat := small.2
    cases h
    simp only [Char.reduceToNat] at *
    omega
  · have : c.toNat ≤ 'F'.toNat := capital.2
    cases h
    simp only [Char.reduceToNat] at *
    omega

theorem hexDigits_lt {s : List Char} {digits : List Nat}
    (h : s.mapM Json.hexValue? = some digits) : ∀ d ∈ digits, d < 16 := by
  induction s generalizing digits with
  | nil =>
    cases h
    simp
  | cons c s ih =>
    rw [List.mapM_cons] at h
    obtain ⟨first, hf, h⟩ := Option.bind_eq_some_iff.mp h
    obtain ⟨more, hm, h⟩ := Option.bind_eq_some_iff.mp h
    cases h
    simpa using ⟨hexValue?_lt hf, ih hm⟩

theorem hexNumeral?_lt {width code : Nat} {s : List Char} (h : hexNumeral? width s = some code) :
    code < 16 ^ width := by
  obtain ⟨digits, hd, h⟩ := Option.bind_eq_some_iff.mp h
  split_ifs at h with length
  cases h
  rw [← length]
  exact Text.ofDigits_lt (hexDigits_lt hd)

/-- A code of a few digits is that of a character. -/
theorem characterOf_of_lt {code : Nat} (h : code < 0x10000) : ∃ c, characterOf code = .ok c := by
  have limit : ¬Text.codeLimit ≤ code := by
    show ¬1 <<< 31 ≤ code
    omega
  rw [characterOf, if_neg limit, if_neg (by omega)]
  exact ⟨_, rfl⟩

namespace Cursor

/-! ## Places of a text -/

/-- What a cursor has before it is the end of a text. -/
def Within (s : List Char) (c : Cursor) : Prop := c.rest <:+ s

variable {s : List Char} {c d : Cursor}

theorem within_self (c : Cursor) : c.Within c.rest := List.suffix_refl _

theorem step_rest (c : Cursor) : c.step.rest = c.rest.tail := by
  unfold step
  split
  · rename_i h
    rw [h]
    rfl
  · rename_i h
    rw [h, List.tail_cons]
    split_ifs <;> rfl

theorem cons_step_rest {ch : Char} (next : c.next? = some ch) : ch :: c.step.rest = c.rest := by
  rw [step_rest]
  exact List.cons_head?_tail next

theorem advance_rest (n : Nat) (c : Cursor) : (c.advance n).rest = c.rest.drop n := by
  induction n generalizing c with
  | zero => rfl
  | succ n ih => rw [advance, ih, step_rest, List.drop_tail]

theorem Within.step (h : c.Within s) : c.step.Within s := by
  rw [Within, step_rest]
  exact (List.tail_suffix _).trans h

theorem Within.advance (h : c.Within s) (n : Nat) : (c.advance n).Within s := by
  rw [Within, advance_rest]
  exact (List.drop_suffix n _).trans h

theorem span_rest (p : Char → Bool) (c : Cursor) : (c.span p).1 ++ (c.span p).2.rest = c.rest := by
  rw [Cursor.span, advance_rest]
  exact (List.prefix_append_drop (List.takeWhile_prefix p)).symm

theorem Within.span (h : c.Within s) (p : Char → Bool) : (c.span p).2.Within s := h.advance _

theorem Within.skip (h : c.Within s) (p : Char → Bool) : (c.skip p).Within s := h.span p

theorem Within.takeBreak? (h : c.Within s) {b : Char} (hd : c.takeBreak? = some (b, d)) :
    d.Within s := by
  unfold Cursor.takeBreak? at hd
  split at hd
  · cases hd
    exact h.advance 2
  · split at hd <;> cases hd
    exact h.step
  · cases hd

theorem Within.skipBreak (h : c.Within s) : c.skipBreak.Within s := by
  unfold Cursor.skipBreak
  split
  · rename_i hd
    exact h.takeBreak? hd
  · exact h

theorem Within.skipComment (h : c.Within s) : c.skipComment.Within s := by
  unfold Cursor.skipComment
  split_ifs
  · exact h.skip _
  · exact h

theorem Within.finishLine (h : c.Within s) : Meets (Within s) (Spoiled s) c.finishLine := by
  unfold Cursor.finishLine
  dsimp only
  split_ifs
  · exact (h.skip isSpace).skipComment.skipBreak
  · exact Spoiled.malformed _

end Cursor

open Cursor

variable {s : List Char} {c : Cursor}

/-- A reader of a text that is at a place comes to another place of it, or fails for the text. -/
abbrev Advances {α : Type} (s : List Char) (x : Except Fault (α × Cursor)) : Prop :=
  Meets (fun r => r.2.Within s) (Spoiled s) x

theorem Advances.of_suffix {α : Type} {t : List Char} {x : Except Fault (α × Cursor)}
    (h : Advances t x) (le : t <:+ s) : Advances s x :=
  h.mono (fun _ after => after.trans le) fun _ fault => fault.mono le.isInfix

/-! ## Plain scalars -/

theorem within_plainBreaks (h : c.Within s) (fuel : Nat) (breaks : List Char) :
    (plainBreaks fuel c breaks).2.Within s := by
  induction fuel generalizing c breaks with
  | zero => exact h
  | succ fuel ih =>
    unfold plainBreaks
    split
    · exact ih h.step breaks
    · split
      · exact h
      · rename_i hd
        split
        · exact h.takeBreak? hd
        · exact ih (h.takeBreak? hd) _

theorem within_plainGap (h : c.Within s) : (plainGap c).2.1.Within s := by
  unfold plainGap
  dsimp only
  split
  · exact h.span _
  · rename_i hd
    have after := (h.span _).takeBreak? hd
    split
    · exact after
    · exact within_plainBreaks after _ _

theorem within_readPlain (h : c.Within s) (flow : Bool) (indent : Int) (fuel : Nat)
    (gap : List Char) (crossed : Bool) :
    (readPlain flow indent fuel gap crossed c).cursor.Within s := by
  induction fuel generalizing c gap crossed with
  | zero => exact h
  | succ fuel ih =>
    unfold readPlain
    dsimp only
    split
    · exact h
    · have after := within_plainGap (h.advance (plainLength flow c.rest))
      split
      · rename_i hg
        rw [hg] at after
        exact after
      · rename_i hg
        rw [hg] at after
        exact after
      · rename_i hg
        rw [hg] at after
        split
        · exact after
        · exact ih after _ _

/-- A plain scalar takes its first character. -/
theorem readPlain_strict {flow : Bool} {indent : Int} {fuel : Nat} {gap : List Char}
    {crossed : Bool} (comment : c.next? ≠ some '#') (length : plainLength flow c.rest ≠ 0) :
    (readPlain flow indent (fuel + 1) gap crossed c).cursor.Within c.step.rest := by
  have start : (c.advance (plainLength flow c.rest)).Within c.step.rest := by
    obtain ⟨n, hn⟩ := Nat.exists_eq_succ_of_ne_zero length
    rw [hn]
    exact (within_self c.step).advance n
  have after := within_plainGap start
  unfold readPlain
  dsimp only
  rw [if_neg (by simp [comment, length])]
  split
  · rename_i hg
    rw [hg] at after
    exact after
  · rename_i hg
    rw [hg] at after
    exact after
  · rename_i hg
    rw [hg] at after
    split
    · exact after
    · exact within_readPlain after _ _ _ _ _

/-! ## Scalars in quotes -/

theorem advances_quotedBreaks (h : c.Within s) (fuel : Nat) :
    Advances s (quotedBreaks fuel c) := by
  induction fuel generalizing c with
  | zero => exact h
  | succ fuel ih =>
    unfold quotedBreaks
    dsimp only
    split_ifs
    · exact Spoiled.malformed _
    · split
      · exact h.skip _
      · rename_i hd
        exact (ih ((h.skip _).takeBreak? hd)).bind fun _ after => after

theorem advances_quotedGap (h : c.Within s) : Advances s (quotedGap c) := by
  unfold quotedGap
  dsimp only
  split_ifs
  · exact Spoiled.malformed _
  · split
    · exact h.span _
    · rename_i hd
      exact (advances_quotedBreaks ((h.span _).takeBreak? hd) _).bind fun _ after => after

theorem escapeWidth?_eq {ch : Char} {width : Nat} (h : escapeWidth? ch = some width) :
    width = 2 ∨ width = 4 ∨ ch = 'U' ∧ width = 8 := by
  unfold escapeWidth? at h
  split at h <;> simp_all

/-- An escape of a character, after its backslash. -/
theorem meets_characterOf {ch : Char} {width code : Nat} (next : c.next? = some ch)
    (wide : escapeWidth? ch = some width) (value : hexNumeral? width c.step.rest = some code) :
    Meets (fun _ => True) (Spoils ('\\' :: c.rest)) (characterOf code) := by
  have small (few : width ≤ 4) : ∃ e, characterOf code = .ok e :=
    characterOf_of_lt (Nat.lt_of_lt_of_le (hexNumeral?_lt value)
      (Nat.pow_le_pow_right (by decide) few))
  cases hc : characterOf code with
  | ok e => trivial
  | error f =>
    rcases escapeWidth?_eq wide with rfl | rfl | ⟨rfl, rfl⟩
    -- of two or four digits no code is beyond the characters
    · simp [hc] at small
    · simp [hc] at small
    · rw [← cons_step_rest next]
      exact .escape (List.infix_rfl) value hc

theorem advances_readEscape (h : '\\' :: c.rest <:+ s) : Advances s (readEscape c) := by
  have here : c.Within s := (List.suffix_cons _ _).trans h
  unfold readEscape
  split
  · exact Spoiled.malformed _
  · rename_i ch next
    split
    · exact here.step
    · split
      · rename_i width wide
        dsimp only
        split
        · exact Spoiled.malformed _
        · rename_i code value
          have there := (meets_characterOf next wide value).mono (fun _ t => t)
            fun f hf => Spoiled.mono (.inr hf) h.isInfix
          exact there.bind fun _ _ => here.step.advance width
      · split_ifs
        · exact advances_quotedBreaks here.skipBreak _
        · exact Spoiled.malformed _

theorem advances_quotedWord (h : c.Within s) (double : Bool) (fuel : Nat) :
    Advances s (quotedWord double fuel c) := by
  induction fuel generalizing c with
  | zero => exact h
  | succ fuel ih =>
    unfold quotedWord
    dsimp only
    have after : (c.span fun ch => !isQuotedStop ch).2.Within s := h.span _
    generalize (c.span fun ch => !isQuotedStop ch).2 = d at after ⊢
    split_ifs with _ _ _ backslash
    · exact (ih (after.advance 2)).bind fun _ at' => at'
    · exact (ih after.step).bind fun _ at' => at'
    · exact (ih after.step).bind fun _ at' => at'
    · have next : d.next? = some '\\' := by simp_all
      refine (advances_readEscape (cons_step_rest next ▸ after)).bind fun e at' => ?_
      exact (ih at').bind fun _ at' => at'
    · exact after

theorem advances_quotedRest (h : c.Within s) (double : Bool) (fuel : Nat) :
    Advances s (quotedRest double fuel c) := by
  induction fuel generalizing c with
  | zero => exact Spoiled.malformed _
  | succ fuel ih =>
    unfold quotedRest
    refine (advances_quotedWord h double _).bind fun ⟨word, d⟩ atWord => ?_
    dsimp only
    generalize (if double then '"' else '\'') = quote
    split
    · exact Within.step atWord
    · refine (advances_quotedGap atWord).bind fun ⟨gap, e⟩ atGap => ?_
      exact (ih atGap).bind fun _ after => after

theorem advances_readQuoted (double : Bool) (c : Cursor) :
    Advances c.step.rest (readQuoted double c) :=
  advances_quotedRest (within_self c.step) double _

/-! ## Blocks -/

theorem advances_readBlockIndent (h : c.Within s) : Advances s (readBlockIndent c) := by
  unfold readBlockIndent
  split
  · exact h
  · exact Spoiled.malformed _
  · exact h.step

theorem meets_readBlockHeader (h : c.Within s) :
    Meets (fun header => header.cursor.Within s) (Spoiled s) (readBlockHeader c) := by
  unfold readBlockHeader
  have checked (header : BlockHeader) (at' : header.cursor.Within s) :
      Meets (fun header => header.cursor.Within s) (Spoiled s)
        (if endsItem header.cursor.next? then pure header else .error header.cursor.fault) := by
    split_ifs
    · exact at'
    · exact Spoiled.malformed _
  dsimp only
  split
  · exact (advances_readBlockIndent h.step).bind fun _ at' => checked _ at'
  · refine (advances_readBlockIndent h).bind fun ⟨indent, d⟩ at' => ?_
    dsimp only
    split
    · exact checked _ (Within.step at')
    · exact checked _ at'

theorem within_blockStart (h : c.Within s) (fuel : Nat) : (blockStart fuel c).2.2.Within s := by
  induction fuel generalizing c with
  | zero => exact h
  | succ fuel ih =>
    unfold blockStart
    split
    · exact ih h.step
    · split
      · exact h
      · rename_i hd
        exact ih (h.takeBreak? hd)

theorem within_alignTo (h : c.Within s) (column fuel : Nat) :
    (alignTo column fuel c).Within s := by
  induction fuel generalizing c with
  | zero => exact h
  | succ fuel ih =>
    unfold alignTo
    split
    · exact ih h.step
    · exact h

theorem within_blockBreaks (h : c.Within s) (indent fuel : Nat) :
    (blockBreaks indent fuel c).2.Within s := by
  induction fuel generalizing c with
  | zero => exact h
  | succ fuel ih =>
    unfold blockBreaks
    dsimp only
    split
    · exact within_alignTo h _ _
    · rename_i hd
      exact ih ((within_alignTo h _ _).takeBreak? hd)

theorem within_readBlockBody (h : c.Within s) (folded : Bool) (indent fuel : Nat)
    (breaks : List Char) : (readBlockBody folded indent fuel breaks c).cursor.Within s := by
  induction fuel generalizing c breaks with
  | zero => exact h
  | succ fuel ih =>
    unfold readBlockBody
    dsimp only
    have after := within_blockBreaks (h.span (!isBreak ·)).skipBreak indent
    split
    · exact h
    · split
      · exact after _
      · exact ih (after _) _

theorem advances_readBlock (folded : Bool) (parent : Int) (c : Cursor) :
    Advances c.step.rest (readBlock folded parent c) := by
  unfold readBlock
  refine (meets_readBlockHeader (within_self c.step)).bind fun header atHeader => ?_
  refine atHeader.finishLine.bind fun d atLine => ?_
  dsimp only
  split
  · exact within_readBlockBody (within_blockBreaks atLine _ _) _ _ _ _
  · exact within_readBlockBody (within_blockStart atLine _) _ _ _ _

end Neogrammar.Yaml
