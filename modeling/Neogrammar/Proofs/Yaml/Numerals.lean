import Neogrammar.Proofs.Json.ReadBack
import Neogrammar.Proofs.Text.Cut
import Neogrammar.Proofs.Text.Numerals
import Neogrammar.Yaml.ScalarValue

/-!
# Whole numbers as scalars

The text of a whole number is of no other kind, and it is read as that number.
-/
namespace Neogrammar

theorem ne_of_isDigit {c e : Char} (hc : c.isDigit = true) (he : e.isDigit = false) : c ≠ e := by
  rintro rfl
  rw [hc] at he
  exact Bool.noConfusion he

namespace Yaml

/-- The digits of a natural number, the first of which is not followed if it is zero. -/
structure IsDecimal (s : List Char) : Prop where
  filled : s ≠ []
  digits : ∀ c ∈ s, c.isDigit = true
  zero : ∀ ds, s = '0' :: ds → ds = []

theorem isDecimal_toDigits (n : Nat) : IsDecimal (Nat.toDigits 10 n) where
  filled := Nat.toDigits_ne_nil
  digits := fun _ hc => Nat.isDigit_of_mem_toDigits (by decide) (by decide) hc
  zero := fun _ h => Json.toDigits_zero_cons h

/-! ## The kind of a whole number -/

/-- No text of a truth value starts with a digit or a dash. -/
theorem isTruth_eq_false {c : Char} {s : List Char} (h : c.isDigit = true ∨ c = '-') :
    isTruth (c :: s) = false := by
  have heads : (truthWords.flatMap fun w => [w, raised w, raised (w.take 1) ++ w.drop 1]).all
      (fun w => w.head?.all fun e => !(e.isDigit || e == '-')) = true := by decide
  have first : (c.isDigit || c == '-') = true := by simpa using h
  rw [isTruth, List.any_eq_false]
  intro w hw cased
  simp only [isEvenlyCased, Bool.or_eq_true, beq_iff_eq] at cased
  have form : c :: s ∈ truthWords.flatMap fun w => [w, raised w, raised (w.take 1) ++ w.drop 1] :=
    List.mem_flatMap.mpr ⟨w, hw, by simpa [or_assoc] using cased⟩
  have none := List.all_eq_true.mp heads _ form
  rw [List.head?_cons, Option.all_some, first] at none
  exact Bool.noConfusion none

variable {s body : List Char}

theorem IsDecimal.not_mem (h : IsDecimal body) {e : Char} (he : e.isDigit = false) : e ∉ body :=
  fun hc => ne_of_isDigit (h.digits e hc) he rfl

theorem IsDecimal.cutAt (h : IsDecimal body) : Text.cutAt (· == ':') body = [body] :=
  Text.cutAt_none fun c hc => by simpa using ne_of_isDigit (h.digits c hc) rfl

/-- A numeral, perhaps with a dash before it. -/
inductive IsSigned (body : List Char) : List Char → Prop
  | plain : IsSigned body body
  | negative : IsSigned body ('-' :: body)

theorem IsDecimal.dropSign (h : IsDecimal body) (signed : IsSigned body s) :
    dropSign s = body := by
  cases signed with
  | plain =>
    obtain ⟨d, ds, rfl⟩ := List.exists_cons_of_ne_nil h.filled
    have digit := h.digits d List.mem_cons_self
    simp [Yaml.dropSign, isSign, ne_of_isDigit (e := '+') digit rfl, ne_of_isDigit (e := '-') digit rfl]
  | negative => rfl

theorem IsDecimal.isReal (h : IsDecimal body) (signed : IsSigned body s) : isReal s = false := by
  have point : '.' ∉ body := h.not_mem rfl
  have point' : '.' ∉ s := by
    cases signed with
    | plain => exact point
    | negative => simpa using point
  have sixty : isSixtyReal body = false := by
    rw [isSixtyReal, h.cutAt]
    simp
  have none : splitPoint body = none := by simp [splitPoint, point]
  have infinite : [".inf", ".Inf", ".INF"].any (·.toList == body) = false := by
    simp only [List.any_eq_false, beq_iff_eq]
    rintro w hw rfl
    exact point (by simp at hw; rcases hw with rfl | rfl | rfl <;> simp)
  have undefined : [".nan", ".NaN", ".NAN"].any (·.toList == s) = false := by
    simp only [List.any_eq_false, beq_iff_eq]
    rintro w hw rfl
    exact point' (by simp at hw; rcases hw with rfl | rfl | rfl <;> simp)
  simp only [Yaml.isReal, h.dropSign signed, infinite, undefined, sixty, none, Bool.or_self]

theorem IsDecimal.isWhole (h : IsDecimal body) (signed : IsSigned body s) : isWhole s = true := by
  obtain ⟨d, ds, rfl⟩ := List.exists_cons_of_ne_nil h.filled
  rw [Yaml.isWhole, h.dropSign signed]
  by_cases zero : d = '0'
  · rw [zero] at h ⊢
    rw [h.zero ds rfl]
    rfl
  · obtain ⟨hd, hds⟩ := List.forall_mem_cons.mp h.digits
    have numeral : isNumeral (d :: ds) = true := by
      simp only [isNumeral, hd, Bool.true_and, List.all_eq_true]
      intro c hc
      simp [isDigitPart, hds c hc]
    simp [numeral, zero]

theorem IsDecimal.kindOf (h : IsDecimal body) (signed : IsSigned body s) : kindOf s = .whole := by
  have truth : isTruth s = false := by
    cases signed with
    | plain =>
      obtain ⟨d, ds, rfl⟩ := List.exists_cons_of_ne_nil h.filled
      exact isTruth_eq_false (.inl (h.digits d List.mem_cons_self))
    | negative => exact isTruth_eq_false (.inr rfl)
  rw [Yaml.kindOf, truth, h.isReal signed, h.isWhole signed]
  rfl

/-! ## The value of a whole number -/

theorem IsDecimal.readDecimal (h : IsDecimal body) (short : body.length ≤ Text.digitLimit) :
    readDecimal body = .ok (Json.digitsValue body : Int) := by
  have digits := Text.digits_of_isDigit h.filled h.digits
  have whole : Text.readInt (String.ofList body) = .ok (Json.digitsValue body : Int) :=
    Text.readInt_ofList.mpr (digits.numeral (by simpa using short))
  rw [Yaml.readDecimal, whole]

theorem IsDecimal.readWhole (h : IsDecimal body) (sign : IsSigned body s)
    (short : body.length ≤ Text.digitLimit) :
    readWhole s = .ok (signed s (Json.digitsValue body)) := by
  have line : s.filter (· != '_') = s := by
    refine List.filter_eq_self.mpr fun c hc => ?_
    have digit (hb : c ∈ body) : (c != '_') = true := by
      simpa using ne_of_isDigit (h.digits c hb) rfl
    cases sign with
    | plain => exact digit hc
    | negative =>
      rcases List.mem_cons.mp hc with rfl | hc
      · rfl
      · exact digit hc
  rw [Yaml.readWhole]
  simp only [line, h.dropSign sign]
  obtain ⟨d, ds, rfl⟩ := List.exists_cons_of_ne_nil h.filled
  by_cases zero : d = '0'
  · rw [zero] at h ⊢
    rw [h.zero ds rfl]
    have none : signed s (Json.digitsValue ['0'] : Int) = 0 := by
      rw [signed]
      split <;> rfl
    rw [none]
    rfl
  · have colon : (d :: ds).contains ':' = false := by
      simpa using h.not_mem (e := ':') rfl
    have other : ((d :: ds) == ['0']) = false := by simp [zero]
    rw [other, if_neg Bool.false_ne_true]
    split
    · next hd => cases hd
    · next hd => exact absurd (List.cons.inj hd).1 zero
    · next hd => exact absurd (List.cons.inj hd).1 zero
    · next hd => exact absurd (List.cons.inj hd).1 zero
    · rw [colon, if_neg Bool.false_ne_true, h.readDecimal short]
      rfl

theorem kindOf_intText (n : Int) : kindOf (Text.intText n).toList = .whole := by
  obtain ⟨-, text⟩ | ⟨-, text⟩ := Text.toList_intText n <;> rw [text]
  · exact (isDecimal_toDigits _).kindOf .plain
  · exact (isDecimal_toDigits _).kindOf .negative

/-- The text of a whole number that is not too long is read as that number. -/
theorem readWhole_intText (n : Int)
    (short : (Nat.toDigits 10 n.natAbs).length ≤ Text.digitLimit) :
    readWhole (Text.intText n).toList = .ok n := by
  have decimal := isDecimal_toDigits n.natAbs
  obtain ⟨sign, text⟩ | ⟨sign, text⟩ := Text.toList_intText n <;> rw [text]
  · rw [decimal.readWhole .plain short, Json.digitsValue_toDigits]
    have : (Nat.toDigits 10 n.natAbs).head? ≠ some '-' := fun h =>
      decimal.not_mem rfl (List.mem_of_mem_head? h)
    rw [signed, if_neg (by simpa using this), Int.natAbs_of_nonneg sign]
  · rw [decimal.readWhole .negative short, Json.digitsValue_toDigits, signed]
    simp only [List.head?_cons, beq_self_eq_true, if_true, Except.ok.injEq]
    omega

end Yaml
end Neogrammar
