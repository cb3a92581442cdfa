import Mathlib.Data.List.Basic
import Mathlib.Data.List.Induction
import Neogrammar.Pattern.Replace
import Neogrammar.Proofs.Pattern.Reader

/-!
# Reading what was written

A character that means nothing, an escaped character and a set of escaped characters are each read
back as one item of a sequence, whatever stands around them.
-/
namespace Neogrammar.Pattern

namespace Modes

@[simp] theorem none_verbose : Modes.none.verbose = false := rfl

@[simp] theorem none_ascii : Modes.none.ascii = false := rfl

@[simp] theorem none_fold : Modes.none.fold = .exact := rfl

end Modes

open Reader

/-- A text that is read as one item, a test of one character, in front of any text. -/
structure ReadsAs (s : List Char) (test : CharTest) : Prop where
  nonempty : s ≠ []
  whole : Whole s
  read : ∀ {fuel : Nat} {top : Bool} {g : Groups} {items : List (Node × ItemKind)} {p : Nat}
    {rest : List Char}, Whole rest →
    sequence (fuel + 1) top .none g items ⟨p, s ++ rest⟩
      = sequence fuel top .none g ((.char test, .plain) :: items) ⟨p + s.length, rest⟩

/-- The characters that do not stand for themselves in a pattern. -/
def operators : List Char :=
  ['.', '^', '$', '*', '+', '?', '\x7b', '\x7d', '[', ']', '(', ')', '|', '\\']

def isOperator (c : Char) : Bool := operators.contains c

/-- The test for one given character. -/
def exactly (c : Char) : CharTest := .literal c.toNat .exact

@[simp] theorem holds_exactly (c x : Char) : (exactly c).holds x = (x == c) := by
  simp only [exactly, CharTest.holds, Fold.same_exact]
  exact Bool.eq_iff_iff.mpr (by simp [Char.toNat_inj])

theorem readsAs_plain {c : Char} (h : isOperator c = false) : ReadsAs [c] (exactly c) := by
  simp [isOperator, operators] at h
  have hc : c ≠ '\\' := by simp [h]
  refine ⟨by simp, whole_cons hc, ?_⟩
  intro fuel top g items p rest hr
  rw [List.singleton_append, sequence]
  simp [next_plain hc, advance_plain hc hr, h, exactly]

/-- The characters that escaping puts a backslash before. -/
def specials : List Char := "\t\n\x0b\x0c\r #$&()*+-.?[\\]^\x7b|\x7d~".toList

/-- A backslash gives the character no meaning of its own. -/
def Meaningless (c : Char) : Prop :=
  anchorEscape? false c = none ∧ classEscape? false c = none
    ∧ (controlEscape? c).getD c.toNat = c.toNat ∧ isOctal c = false ∧ c.isDigit = false
    ∧ isAsciiAlpha c = false

instance (c : Char) : Decidable (Meaningless c) := by
  unfold Meaningless
  infer_instance

theorem meaningless_of_isSpecial {c : Char} (h : isSpecial c = true) : Meaningless c := by
  have all : (specials.all fun c => decide (Meaningless c)) = true := by decide +kernel
  exact of_decide_eq_true (List.all_eq_true.mp all c (List.contains_iff_mem.mp h))

theorem isSpecial_of_isOperator {c : Char} (h : isOperator c = true) : isSpecial c = true := by
  have all : operators.all isSpecial = true := by decide +kernel
  exact List.all_eq_true.mp all c (List.contains_iff_mem.mp h)

variable {g : Groups} {c : Char} {r : Reader}

theorem codeEscape?_special (h : isSpecial c = true) : codeEscape? c r = none := by
  unfold codeEscape?
  split <;> first | rfl | exact absurd h (by decide)

theorem itemEscape_special (h : isSpecial c = true) :
    itemEscape .none g c r = .ok (.char (exactly c), .plain, r) := by
  obtain ⟨anchor, kind, control, octal, digit, alpha⟩ := meaningless_of_isSpecial h
  have zero : c ≠ '0' := by rintro rfl; exact absurd octal (by decide)
  cases hc : controlEscape? c with
  | some n =>
    rw [hc, Option.getD_some] at control
    simp [itemEscape, anchor, kind, hc, control, exactly]
  | none =>
    simp [itemEscape, anchor, kind, hc, codeEscape?_special h, zero, digit, alpha, exactly]

theorem setEscape_special (h : isSpecial c = true) :
    setEscape .none c r = .ok (.single c.toNat, r) := by
  obtain ⟨-, kind, control, octal, digit, alpha⟩ := meaningless_of_isSpecial h
  cases hc : controlEscape? c with
  | some n =>
    rw [hc, Option.getD_some] at control
    simp [setEscape, hc, control]
  | none =>
    simp [setEscape, kind, hc, codeEscape?_special h, octal, digit, alpha]

@[simp] theorem escape_nil : escape [] = [] := rfl

theorem escape_cons (c : Char) (s : List Char) : escape (c :: s) = escape [c] ++ escape s := by
  simp [escape]

theorem escape_singleton (c : Char) : escape [c] = if isSpecial c then ['\\', c] else [c] := by
  simp [escape]

/-- A character is read back from its escaped form. -/
theorem readsAs_escape (c : Char) : ReadsAs (escape [c]) (exactly c) := by
  rw [escape_singleton]
  cases h : isSpecial c with
  | true =>
    refine ⟨by simp, whole_escaped, ?_⟩
    intro fuel top g items p rest hr
    simp only [↓reduceIte, List.cons_append, List.nil_append]
    rw [sequence, next_escaped]
    simp [advance_escaped hr, itemEscape_special h]
  | false =>
    refine readsAs_plain ?_
    cases hop : isOperator c with
    | false => rfl
    | true =>
      rw [isSpecial_of_isOperator hop] at h
      cases h

/-- An exact set holds what one of its members holds. -/
theorem holds_ofItems (items : List SetItem) (x : Char) :
    (CharTest.ofItems false items .exact).holds x = items.any (·.holds x.toNat) := by
  have same : items.eraseDups.any (·.holds x.toNat) = items.any (·.holds x.toNat) :=
    Bool.eq_iff_iff.mpr (by simp [List.any_eq_true, List.mem_eraseDups])
  unfold CharTest.ofItems
  split
  · rename_i d hd
    rw [← same, hd]
    simp [CharTest.holds, SetItem.holds]
  · simp [CharTest.holds, same]

/-- The test for any of some characters. -/
def oneOf (s : List Char) : CharTest :=
  .ofItems false (s.map fun c => .single c.toNat) .exact

@[simp] theorem holds_oneOf (s : List Char) (x : Char) : (oneOf s).holds x = s.contains x := by
  rw [oneOf, holds_ofItems]
  refine Bool.eq_iff_iff.mpr ?_
  simp only [List.any_map, List.any_eq_true, Function.comp_apply, SetItem.holds, beq_iff_eq,
    Char.toNat_inj, exists_eq_right', List.contains_eq_mem, decide_eq_true_eq]

/-- An escaped text up to a bracket is whole. -/
theorem whole_escape (s rest : List Char) : Whole (escape s ++ ']' :: rest) := by
  cases s with
  | nil => exact whole_cons (by decide)
  | cons c s =>
    rw [escape_cons, List.append_assoc]
    exact (readsAs_escape c).whole.append (readsAs_escape c).nonempty _

/-- No special character but the bracket comes next where an escaped text stands. -/
theorem next_escape_ne {d : Char} (hd : isSpecial d = true) (hb : d ≠ ']') (p : Nat)
    (s rest : List Char) : next ⟨p, escape s ++ ']' :: rest⟩ ≠ some (.plain d) := by
  cases s with
  | nil =>
    rw [escape_nil, List.nil_append, next_plain (by decide)]
    simpa using hb.symm
  | cons c s =>
    rw [escape_cons, escape_singleton]
    cases h : isSpecial c with
    | true => simp
    | false =>
      have hc : c ≠ '\\' := by rintro rfl; exact absurd h (by decide)
      have hcd : c ≠ d := by rintro rfl; rw [h] at hd; cases hd
      simpa [next_plain hc] using hcd

theorem setItems_escape {here fuel p : Nat} {rest : List Char} (s : List Char)
    (items : List SetItem) (hr : Whole rest) (nonempty : s ≠ [] ∨ items ≠ [])
    (enough : s.length < fuel) :
    setItems .none here fuel items ⟨p, escape s ++ ']' :: rest⟩
      = .ok (items.reverse ++ s.map fun c => .single c.toNat,
          ⟨p + (escape s).length + 1, rest⟩) := by
  induction s generalizing fuel items p with
  | nil =>
    obtain ⟨fuel, rfl⟩ : ∃ n, fuel = n + 1 := ⟨fuel - 1, by simp at enough; omega⟩
    have hi : items ≠ [] := by simpa using nonempty
    simp [setItems, next_plain, advance_plain, hr, hi, pure_eq_ok]
  | cons c s ih =>
    rw [List.length_cons] at enough
    obtain ⟨fuel, rfl⟩ : ∃ n, fuel = n + 1 := ⟨fuel - 1, by omega⟩
    have rest_whole := whole_escape s rest
    have no_range : ∀ q, (⟨q, escape s ++ ']' :: rest⟩ : Reader).accept '-'
        = .ok (false, ⟨q, escape s ++ ']' :: rest⟩) :=
      fun q => accept_unseen (next_escape_ne (by decide) (by decide) q s rest)
    have step : ∀ q, setItems .none here fuel (.single c.toNat :: items)
        ⟨q, escape s ++ ']' :: rest⟩
        = .ok ((SetItem.single c.toNat :: items).reverse ++ s.map fun c => .single c.toNat,
            ⟨q + (escape s).length + 1, rest⟩) :=
      fun q => ih (p := q) (.single c.toNat :: items) (.inr (by simp)) (by omega)
    rw [escape_cons, List.append_assoc, escape_singleton, setItems]
    cases h : isSpecial c with
    | true =>
      simp [advance_escaped rest_whole, setMember, setEscape_special h, no_range, step]
      omega
    | false =>
      have hc : c ≠ '\\' := by rintro rfl; exact absurd h (by decide)
      have hb : c ≠ ']' := by rintro rfl; exact absurd h (by decide)
      simp [next_plain hc, advance_plain hc rest_whole, hb, setMember, no_range, step]
      omega

theorem length_le_escape (s : List Char) : s.length ≤ (escape s).length := by
  induction s with
  | nil => simp
  | cons c s ih =>
    have one : 0 < (escape [c]).length := List.length_pos_iff.mpr (readsAs_escape c).nonempty
    rw [escape_cons, List.length_append, List.length_cons]
    omega

/-- A set of escaped characters is read back as the test for any of them. -/
theorem readsAs_set {s : List Char} (nonempty : s ≠ []) :
    ReadsAs ('[' :: (escape s ++ [']'])) (oneOf s) := by
  refine ⟨by simp, whole_cons (by decide), ?_⟩
  intro fuel top g items p rest hr
  have whole := whole_escape s rest
  have not_negated : (⟨p + 1, escape s ++ ']' :: rest⟩ : Reader).accept '^'
      = .ok (false, ⟨p + 1, escape s ++ ']' :: rest⟩) :=
    accept_unseen (next_escape_ne (by decide) (by decide) _ s rest)
  have enough : s.length < (escape s ++ ']' :: rest).length + 1 := by
    have := length_le_escape s
    rw [List.length_append]
    omega
  have members : setItems .none p ((escape s ++ ']' :: rest).length + 1) []
      ⟨p + 1, escape s ++ ']' :: rest⟩
      = .ok (s.map fun c => .single c.toNat, ⟨p + 1 + (escape s).length + 1, rest⟩) :=
    setItems_escape s [] hr (.inl nonempty) enough
  have read : set .none ⟨p + 1, escape s ++ ']' :: rest⟩
      = .ok (oneOf s, ⟨p + 1 + (escape s).length + 1, rest⟩) := by
    simp only [set, not_negated, ok_bind, Nat.add_sub_cancel, members, pure_eq_ok, oneOf,
      Modes.none_fold]
  rw [List.cons_append, List.append_assoc, List.singleton_append, sequence]
  have length : p + 1 + (escape s).length + 1 = p + ('[' :: (escape s ++ [']'])).length := by
    rw [List.length_cons, List.length_append, List.length_singleton]
    omega
  simp only [next_plain (show '[' ≠ '\\' by decide),
    advance_plain (show '[' ≠ '\\' by decide) whole, ok_bind, Modes.none_verbose, Bool.false_and,
    read, length]
  simp

/-- The items of some tests, the latest first. -/
def itemsOf (tests : List CharTest) : List (Node × ItemKind) :=
  (tests.map fun test => (.char test, .plain)).reverse

theorem itemsOf_cons (test : CharTest) (tests : List CharTest) :
    itemsOf (test :: tests) = itemsOf tests ++ [(.char test, .plain)] := by simp [itemsOf]

theorem whole_flatten {pieces : List (List Char)} {tests : List CharTest}
    (h : List.Forall₂ ReadsAs pieces tests) {rest : List Char} (hr : Whole rest) :
    Whole (pieces.flatten ++ rest) := by
  cases h with
  | nil => exact hr
  | cons first _ =>
    rw [List.flatten_cons, List.append_assoc]
    exact first.whole.append first.nonempty _

/-- Items, the latest first, with one more before all of them. -/
theorem joinItems_append {items : List (Node × ItemKind)} (h : items ≠ [])
    (item : Node × ItemKind) : joinItems (items ++ [item]) = .seq item.1 (joinItems items) := by
  obtain ⟨last, rest, rfl⟩ := List.exists_cons_of_ne_nil h
  simp [joinItems]

/-- Pieces of a pattern are read one after the other. -/
theorem sequence_pieces {pieces : List (List Char)} {tests : List CharTest}
    (h : List.Forall₂ ReadsAs pieces tests) {fuel : Nat} {top : Bool} {g : Groups}
    {items : List (Node × ItemKind)} {p : Nat} {rest : List Char} (hr : Whole rest) :
    sequence (fuel + pieces.length) top .none g items ⟨p, pieces.flatten ++ rest⟩
      = sequence fuel top .none g (itemsOf tests ++ items) ⟨p + pieces.flatten.length, rest⟩ := by
  induction h generalizing items p with
  | nil => simp [itemsOf]
  | @cons piece test pieces tests first more ih =>
    rw [List.flatten_cons, List.append_assoc, List.length_cons, ← Nat.add_assoc,
      first.read (whole_flatten more hr), ih, itemsOf_cons, List.append_assoc,
      List.singleton_append, List.length_append, Nat.add_assoc]

theorem length_le_flatten {pieces : List (List Char)} {tests : List CharTest}
    (h : List.Forall₂ ReadsAs pieces tests) : pieces.length ≤ pieces.flatten.length := by
  induction h with
  | nil => simp
  | cons first _ ih =>
    have one := List.length_pos_iff.mpr first.nonempty
    rw [List.length_cons, List.flatten_cons, List.length_append]
    omega

theorem sequence_open {fuel : Nat} {top : Bool} {g : Groups} {items : List (Node × ItemKind)}
    {p : Nat} {rest : List Char} (hr : Whole rest) :
    sequence (fuel + 1) top .none g items ⟨p, '(' :: rest⟩
      = bracket fuel top .none g items ⟨p + 1, rest⟩ := by
  rw [sequence]
  simp [next_plain, advance_plain, hr]

theorem sequence_bracket {fuel : Nat} {top : Bool} {m : Modes} {g : Groups}
    {items : List (Node × ItemKind)} {p : Nat} {rest : List Char} :
    sequence fuel top m g items ⟨p, ')' :: rest⟩
      = .ok ⟨joinItems items, m, g, ⟨p, ')' :: rest⟩⟩ := by
  cases fuel with
  | zero => rw [sequence]
  | succ fuel =>
    rw [sequence, next_plain (by decide)]
    simp

theorem sequence_end {fuel : Nat} {top : Bool} {m : Modes} {g : Groups}
    {items : List (Node × ItemKind)} {p : Nat} :
    sequence fuel top m g items ⟨p, []⟩ = .ok ⟨joinItems items, m, g, ⟨p, []⟩⟩ := by
  cases fuel <;> simp [sequence]

end Neogrammar.Pattern
