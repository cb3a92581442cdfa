import Mathlib.Algebra.Group.Nat.Defs
import Mathlib.Data.List.Induction
import Mathlib.Logic.Basic
import Neogrammar.Text.Numeral

/-!
# Written numbers

The decimal text of a natural number has digits only and belongs to no other number. A number past
the digit limit is not written. Few digits make a small number.
-/
namespace Neogrammar.Text

theorem toList_natText (n : Nat) : (natText n).toList = Nat.toDigits 10 n := String.toList_ofList

theorem isDigit_of_mem_natText {n : Nat} {c : Char} (h : c ∈ (natText n).toList) :
    c.isDigit = true := by
  rw [toList_natText] at h
  exact Nat.isDigit_of_mem_toDigits (by decide) (by decide) h

theorem natText_inj {m n : Nat} : natText m = natText n ↔ m = n := by
  constructor
  · intro h
    have digits := congrArg (fun s => Nat.ofDigitChars 10 s.toList 0) h
    simpa only [toList_natText, Nat.ofDigitChars_ten_toDigits] using digits
  · rintro rfl
    rfl

/-- The text of a whole number: its digits, after a dash if it is negative. -/
theorem toList_intText (n : Int) :
    (0 ≤ n ∧ (intText n).toList = Nat.toDigits 10 n.natAbs) ∨
      (n < 0 ∧ (intText n).toList = '-' :: Nat.toDigits 10 n.natAbs) := by
  cases n with
  | ofNat n => exact .inl ⟨Int.natCast_nonneg n, by simp [intText, natText]⟩
  | negSucc n => exact .inr ⟨Int.negSucc_lt_zero n, by simp [intText, natText]⟩

theorem ofDigits_toDigits (n : Nat) :
    ofDigits 10 ((Nat.toDigits 10 n).map fun c => c.toNat - '0'.toNat) = n := by
  rw [ofDigits, List.foldl_map]
  exact Nat.ofDigitChars_toDigits (by decide) (by decide)

theorem isWritable_eq_false {n : Nat} (h : Nat.pow 10 digitLimit ≤ n) : isWritable n = false := by
  rw [Nat.pow_eq] at h
  have long : ¬(Nat.toDigits 10 n).length ≤ digitLimit := fun short =>
    Nat.not_lt.mpr h ((Nat.length_toDigits_le_iff (by decide) (by decide)).mp short)
  rw [isWritable, Int.natAbs_natCast]
  exact decide_eq_false long

/-- A numeral is below the power of its base that its length gives. -/
theorem ofDigits_lt {base : Nat} {ds : List Nat} (h : ∀ d ∈ ds, d < base) :
    ofDigits base ds < base ^ ds.length := by
  induction ds using List.reverseRecOn with
  | nil => simp [ofDigits]
  | append_singleton ds d ih =>
    have last : d < base := h d (by simp)
    have before := ih fun e he => h e (by simp [he])
    have step : ofDigits base (ds ++ [d]) = base * ofDigits base ds + d := by
      simp [ofDigits]
    rw [step, List.length_append, List.length_singleton, Nat.pow_succ, Nat.mul_comm (base ^ _)]
    calc base * ofDigits base ds + d < base * (ofDigits base ds + 1) := by
          rw [Nat.mul_add]
          omega
      _ ≤ base * base ^ ds.length := Nat.mul_le_mul_left base before

end Neogrammar.Text
