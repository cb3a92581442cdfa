import Mathlib.Data.List.Infix
import Mathlib.Data.List.TakeWhile
import Neogrammar.Proofs.Json.ReadBack
import Neogrammar.Proofs.Outcome

/-!
# Numerals past the digit limit

What a reader leaves is the end of its text. A text is refused for its notation, or for a run of
digits in it that is longer than the limit.
-/
namespace Neogrammar.Json

variable {s t rest : List Char}

/-- A run of digits that is too long to be read stands in a text. -/
inductive Overlong (t : List Char) : ReadError → Prop
  | intro {digits : List Char} (there : digits <:+: t) (number : ∀ c ∈ digits, c.isDigit)
      (long : Text.digitLimit < digits.length) : Overlong t (.tooLong digits.length)

/-- A text is malformed, or it has a numeral past the limit. -/
def Fails (t : List Char) (e : ReadError) : Prop := e = .malformed ∨ Overlong t e

theorem Fails.malformed : Fails t .malformed := .inl rfl

/-! ## What readers leave -/

theorem skipSpace_suffix (s : List Char) : skipSpace s <:+ s := List.dropWhile_suffix isSpace

theorem readUnit_suffix {n : Nat} (h : readUnit s = some (n, rest)) : rest <:+ s := by
  unfold readUnit at h
  split at h
  · simp only [Option.bind_eq_bind, Option.bind_eq_some_iff] at h
    obtain ⟨_, _, _, _, _, _, _, _, h⟩ := h
    cases h
    exact ⟨[_, _, _, _], rfl⟩
  · cases h

theorem readEscapedUnit_suffix {c : Char} (h : readEscapedUnit s = some (c, rest)) :
    rest <:+ s := by
  obtain ⟨⟨n, after⟩, hn, h⟩ := Option.bind_eq_some_iff.mp h
  have unit : after <:+ s := readUnit_suffix hn
  have left {d : Char} {r : List Char} (h : pure (d, r) = some (c, rest)) : r = rest :=
    congrArg Prod.snd (Option.some.inj h)
  dsimp only at h
  split at h
  · split at h
    · split at h
      · rename_i second
        split at h
        · rw [← left h]
          exact ((readUnit_suffix second).trans ⟨[_, _], rfl⟩).trans unit
        · exact left h ▸ unit
      · exact left h ▸ unit
    · exact left h ▸ unit
  · split at h <;> exact left h ▸ unit

theorem readChars_suffix {fuel : Nat} {chars : List Char}
    (h : readChars fuel s = some (chars, rest)) : rest <:+ s := by
  fun_induction readChars fuel s generalizing chars with
  | case1 => cases h
  | case2 => cases h
  | case3 =>
    cases h
    exact List.suffix_cons _ _
  | case4 fuel s ih =>
    obtain ⟨⟨c, after⟩, unit, h⟩ := Option.bind_eq_some_iff.mp h
    obtain ⟨⟨more, last⟩, hm, h⟩ := Option.bind_eq_some_iff.mp h
    cases h
    exact ((ih after hm).trans (readEscapedUnit_suffix unit)).trans ⟨[_, _], rfl⟩
  | case5 fuel e s _ ih =>
    obtain ⟨c, simple, h⟩ := Option.bind_eq_some_iff.mp h
    obtain ⟨⟨more, last⟩, hm, h⟩ := Option.bind_eq_some_iff.mp h
    cases h
    exact (ih hm).trans ⟨[_, _], rfl⟩
  | case6 => cases h
  | case7 fuel c s _ _ _ _ ih =>
    obtain ⟨⟨more, last⟩, hm, h⟩ := Option.bind_eq_some_iff.mp h
    cases h
    exact (ih hm).trans (List.suffix_cons _ _)

theorem readFraction_suffix (s : List Char) : (readFraction s).2 <:+ s := by
  unfold readFraction
  split
  · dsimp only
    split
    · exact List.suffix_refl _
    · exact (List.drop_suffix _ _).trans (List.suffix_cons _ _)
  · exact List.suffix_refl _

theorem readExponent_suffix (s : List Char) : (readExponent s).2 <:+ s := by
  unfold readExponent
  split
  · rename_i e tail
    split
    · split
      rename_i negative body signed
      have below : body <:+ tail := by
        split at signed <;> cases signed
        · exact List.suffix_cons _ _
        · exact List.suffix_cons _ _
        · exact List.suffix_refl _
      dsimp only
      split
      · exact List.suffix_refl _
      · exact ((List.drop_suffix _ _).trans below).trans (List.suffix_cons _ _)
    · exact List.suffix_refl _
  · exact List.suffix_refl _

/-- The whole digits of a numeral stand in its text. -/
structure Numeral.Within (t : List Char) (n : Numeral) : Prop where
  rest : n.rest <:+ t
  whole : n.whole <:+: t
  digits : ∀ c ∈ n.whole, c.isDigit

theorem wholeDigits_prefix (body : List Char) :
    wholeDigits body <+: body ∧ ∀ c ∈ wholeDigits body, c.isDigit := by
  unfold wholeDigits
  split
  · exact ⟨⟨_, rfl⟩, by simp⟩
  · exact ⟨List.takeWhile_prefix _, fun _ hc => List.mem_takeWhile_imp hc⟩

theorem readUnsigned_within {negative : Bool} {body : List Char} {n : Numeral} (h : body <:+ t)
    (hn : readUnsigned negative body = some n) : n.Within t := by
  obtain ⟨start, digits⟩ := wholeDigits_prefix body
  unfold readUnsigned at hn
  split at hn <;> cases hn
  have left := (readExponent_suffix _).trans
    (readFraction_suffix (body.drop (wholeDigits body).length))
  exact ⟨(left.trans (List.drop_suffix _ _)).trans h, start.isInfix.trans h.isInfix, digits⟩

theorem readNumeral_within {n : Numeral} (h : s <:+ t) (hn : readNumeral s = some n) :
    n.Within t := by
  cases s with
  | nil => cases hn
  | cons d body =>
    by_cases negative : d = '-'
    · rw [negative, readNumeral_negative] at hn
      exact readUnsigned_within ((List.suffix_cons _ _).trans h) hn
    · rw [readNumeral_unsigned negative] at hn
      exact readUnsigned_within h hn

theorem Numeral.Within.value {n : Numeral} (h : n.Within t) : FailsOnly (Fails t) n.value := by
  unfold Numeral.value
  split
  · split
    · rename_i long
      exact .error (.inr (.intro h.whole h.digits long))
    · exact .ok _
  · exact .ok _

/-! ## Values -/

/-- A reader leaves the end of a text, or fails for the text. -/
abbrev Leaves {α : Type} (t : List Char) (x : Except ReadError (α × List Char)) : Prop :=
  Meets (fun r => r.2 <:+ t) (Fails t) x

/-- What the readers of values leave with some fuel. -/
structure Reading (t : List Char) (fuel : Nat) : Prop where
  value {s : List Char} (h : s <:+ t) : Leaves t (readValue fuel s)
  items {s : List Char} (h : s <:+ t) : Leaves t (readItems fuel s)
  entries {s : List Char} (h : s <:+ t) : Leaves t (readEntries fuel s)

namespace Reading

variable {fuel : Nat} (ih : Reading t fuel)

theorem behind {c : Char} (h : c :: s <:+ t) : skipSpace s <:+ t :=
  ((skipSpace_suffix s).trans (List.suffix_cons c s)).trans h

include ih

theorem succ_value (h : s <:+ t) : Leaves t (readValue (fuel + 1) s) := by
  unfold readValue
  split
  · split
    · rename_i chars
      exact ((readChars_suffix chars).trans (List.suffix_cons _ _)).trans h
    · exact Fails.malformed
  · have space := behind h
    split
    · rename_i closed
      exact (List.suffix_cons _ _).trans (closed ▸ space)
    · exact (ih.items space).bind fun _ after => after
  · have space := behind h
    split
    · rename_i closed
      exact (List.suffix_cons _ _).trans (closed ▸ space)
    · exact (ih.entries space).bind fun _ after => after
  · split
    · exact (List.drop_suffix _ _).trans h
    · split
      · exact Fails.malformed
      · rename_i n hn
        have within := readNumeral_within h hn
        exact (Meets.of_failsOnly within.value fun _ _ => trivial).bind
          (R := fun _ => True) fun _ _ => within.rest

theorem succ_items (h : s <:+ t) : Leaves t (readItems (fuel + 1) s) := by
  unfold readItems
  refine (ih.value h).bind fun item after => ?_
  have space := (skipSpace_suffix item.2).trans after
  dsimp only
  split
  · rename_i next
    exact (List.suffix_cons _ _).trans (next ▸ space)
  · rename_i next
    exact (ih.items (behind (next ▸ space))).bind fun _ after => after
  · exact Fails.malformed

theorem succ_entries (h : s <:+ t) : Leaves t (readEntries (fuel + 1) s) := by
  unfold readEntries
  split
  · split
    · exact Fails.malformed
    · rename_i hk
      have key := (skipSpace_suffix _).trans
        (((readChars_suffix hk).trans (List.suffix_cons _ _)).trans h)
      split
      · rename_i colon
        refine (ih.value (behind (colon ▸ key))).bind fun value after => ?_
        have space := (skipSpace_suffix value.2).trans after
        dsimp only
        split
        · rename_i next
          exact (List.suffix_cons _ _).trans (next ▸ space)
        · rename_i next
          exact (ih.entries (behind (next ▸ space))).bind fun _ after => after
        · exact Fails.malformed
      · exact Fails.malformed
  · exact Fails.malformed

end Reading

theorem reading (t : List Char) (fuel : Nat) : Reading t fuel := by
  induction fuel with
  | zero => exact ⟨fun _ => .malformed, fun _ => .malformed, fun _ => .malformed⟩
  | succ fuel ih => exact ⟨ih.succ_value, ih.succ_items, ih.succ_entries⟩

/-- A text is read, or it is malformed, or a run of digits in it is longer than the limit. -/
theorem fails_read (text : String) : FailsOnly (Fails text.toList) (read text) := by
  refine Meets.failsOnly (R := fun _ => True) ?_
  refine ((reading _ _).value (skipSpace_suffix text.toList)).bind fun value _ => ?_
  exact .ite (fun _ => trivial) fun _ => Fails.malformed

end Neogrammar.Json
