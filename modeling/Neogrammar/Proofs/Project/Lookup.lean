import Neogrammar.Project.Lookup
import Neogrammar.Proofs.Project.Roster
import Neogrammar.Proofs.Text.Numerals

/-!
# Languages that are looked up

A text of digits refers to an index and any other text to a name. The language that is found is the
first live one that the text refers to, and none is found only where the text refers to none. Digits
that are not decimal and numerals that are too long end the lookup by an error.
-/
namespace Neogrammar

/-- Digits that are not read as a number: one of them stands outside the place-value systems, or
there are too many. -/
def Text.IsUnread (ref : String) : Prop :=
  isNumeral ref = true ∧
    ((∃ c ∈ ref.toList, isDecimal c.toNat = false) ∨ digitLimit < ref.length)

/-- Digits are read as the number that they write, unless they are not read at all. -/
theorem Text.readInt_of_isNumeral {ref : String} {n : Int} (numeral : isNumeral ref = true) :
    readInt ref = .ok n ↔ ¬IsUnread ref ∧ n = numberOf ref := by
  obtain ⟨filled, digit⟩ := Bool.and_eq_true_iff.mp numeral
  rw [readInt_of_isDigit (by simpa using filled) (by simpa using digit)]
  simp [IsUnread, numeral, and_assoc]

theorem wholeOfText_eq_ok_iff {s : String} {n : Int} :
    wholeOfText s = .ok n ↔ Text.readInt s = .ok n := by
  unfold wholeOfText
  split <;> simp [*]

namespace Project

variable {p : Project} {ref : String} {i : Nat}

/-- There is a language at an index, and a text refers to it: digits by its index, and any other
text by its name. -/
def Refers (p : Project) (ref : String) (i : Nat) : Prop :=
  ∃ l, p.languages.find? i = some l ∧
    if Text.isNumeral ref then i = Text.numberOf ref else l.name = .text ref

theorem refers_numeral (numeral : Text.isNumeral ref = true) :
    p.Refers ref i ↔ p.languages.isLive i = true ∧ i = Text.numberOf ref := by
  simp [Refers, numeral, Slots.isLive, Option.isSome_iff_exists]

theorem lookUp_numeral (numeral : Text.isNumeral ref = true) {answer : Option Nat} :
    p.lookUp ref = .ok answer ↔ ¬Text.IsUnread ref ∧ answer =
      if p.languages.isLive (Text.numberOf ref) then some (Text.numberOf ref) else none := by
  rw [lookUp, if_pos numeral, bind_eq_ok_iff]
  simp only [wholeOfText_eq_ok_iff, Text.readInt_of_isNumeral numeral]
  constructor
  · rintro ⟨_, ⟨read, rfl⟩, h⟩
    cases h
    exact ⟨read, rfl⟩
  · rintro ⟨read, rfl⟩
    exact ⟨_, ⟨read, rfl⟩, rfl⟩

/-- A lookup returns unless it is given digits that are not read. It finds the first language that
the text refers to, and no language only if the text refers to none. -/
theorem lookUp_finds (p : Project) (ref : String) :
    ((∃ answer, p.lookUp ref = .ok answer) ↔ ¬Text.IsUnread ref) ∧
      (∀ i, p.lookUp ref = .ok (some i) → p.Refers ref i ∧ ∀ j < i, ¬p.Refers ref j) ∧
      (p.lookUp ref = .ok none → ∀ i, ¬p.Refers ref i) := by
  by_cases numeral : Text.isNumeral ref = true
  · simp only [lookUp_numeral numeral, refers_numeral numeral]
    refine ⟨by simp, ?_, ?_⟩
    · rintro i ⟨-, found⟩
      split at found
      · rename_i live
        cases found
        exact ⟨⟨live, rfl⟩, fun j lower here => absurd here.2 (Nat.ne_of_lt lower)⟩
      · cases found
    · rintro ⟨-, none⟩ i ⟨live, rfl⟩
      rw [if_pos live] at none
      cases none
  · have named {i : Nat} : p.Refers ref i ↔
        ∃ l, p.languages.find? i = some l ∧ l.name.same (.text ref) = true := by
      simp [Refers, numeral, Datum.same_text_iff]
    have read : ¬Text.IsUnread ref := fun h => numeral h.1
    simp only [lookUp, if_neg numeral, findLanguage, Except.ok.injEq, named]
    refine ⟨by simp [read], ?_, ?_⟩
    · intro i found
      obtain ⟨here, first⟩ := Slots.findIndex?_eq_some_iff.mp found
      refine ⟨here, ?_⟩
      rintro j lower ⟨l, hl, same⟩
      rw [first j lower l hl] at same
      cases same
    · rintro none i ⟨l, hl, same⟩
      rw [Slots.findIndex?_eq_none_iff.mp none i l hl] at same
      cases same

/-- A language behind a slot whose language was removed. -/
def widowed : Project := ⟨⟨[none, some (.named "Ayi")]⟩, .empty⟩

theorem lookUp_finds_widowed :
    widowed.lookUp "1" = .ok (some 1) ∧ widowed.Refers "1" 1 ∧ widowed.lookUp "0" = .ok none ∧
      ¬widowed.Refers "0" 0 ∧ widowed.lookUp "Ayi" = .ok (some 1) ∧ ¬widowed.Refers "Ayi" 0 :=
  have found : widowed.lookUp "1" = .ok (some 1) := rfl
  have none : widowed.lookUp "0" = .ok none := rfl
  have named : widowed.lookUp "Ayi" = .ok (some 1) := rfl
  ⟨found, ((lookUp_finds widowed "1").2.1 1 found).1, none, (lookUp_finds widowed "0").2.2 none 0,
    named, ((lookUp_finds widowed "Ayi").2.1 1 named).2 0 (by decide)⟩

set_option maxRecDepth 4000 in
theorem isDigit_superscript : Text.isDigit '²'.toNat = true := by
  have written : Text.loneDigits = (Text.intervals _).toArray := Text.Ranges.ofText_ofList _
  have lone : Text.loneDigits.has '²'.toNat = true := by
    rw [written]
    decide +kernel
  rw [Text.isDigit, lone, Bool.and_true, Bool.or_eq_true]
  exact .inr rfl

set_option maxRecDepth 4000 in
theorem isDecimal_superscript : Text.isDecimal '²'.toNat = false := by
  have written : Text.decimals = (Text.intervals _).toArray := Text.Ranges.ofText_ofList _
  rw [Text.isDecimal, Text.decimalValue?, written]
  decide +kernel

/-- A superscript is a digit, but no number is read from it. -/
theorem lookUp_superscript : ∃ e, widowed.lookUp "²" = .error e := by
  have numeral : Text.isNumeral "²" = true := by
    simpa [Text.isNumeral] using isDigit_superscript
  have unread : Text.IsUnread "²" := ⟨numeral, .inl ⟨'²', by simp, isDecimal_superscript⟩⟩
  cases h : widowed.lookUp "²" with
  | error e => exact ⟨e, rfl⟩
  | ok answer => exact absurd unread (lookUp_numeral numeral |>.mp h).1

end Project
end Neogrammar
