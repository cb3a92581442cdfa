import Mathlib.Logic.Basic
import Neogrammar.Text.Numeral

/-!
# Kinds of characters

What a written set holds lies in one of its intervals, so a property of all members is checked on
the characters that write it. A digit is never a blank, and its value is below ten.
-/
namespace Neogrammar.Text

/-! ## Written sets -/

/-- The intervals that characters write. -/
def intervals (s : List Char) : List (Nat × Nat) :=
  ((cutAt isGap s).filter (!·.isEmpty)).map fun item =>
    match cutAt (· == '-') item with
    | [low, high] => (hexValue low, hexValue high)
    | parts => (hexValue parts.flatten, hexValue parts.flatten)

/-- A literal is the text of its characters, so a written set is evaluated through this. -/
theorem Ranges.ofText_ofList (s : List Char) :
    Ranges.ofText (String.ofList s) = (intervals s).toArray := by
  rw [Ranges.ofText, entries, String.toList_ofList]
  rfl

/-- The search by halves finds an index of its stretch that starts at or before the code. -/
theorem le_of_lastAtOrBefore {starts : Nat → Nat} {c fuel low high i : Nat}
    (h : lastAtOrBefore starts c fuel low high = some i) : starts i ≤ c ∧ i < high := by
  induction fuel generalizing low high i with
  | zero => cases h
  | succ fuel ih =>
    rw [lastAtOrBefore] at h
    split at h
    · cases h
    · dsimp only at h
      split at h
      · rename_i below
        rcases Option.or_eq_some_iff.mp h with later | ⟨-, here⟩
        · exact ih later
        · cases here
          exact ⟨below, by omega⟩
      · have := ih h
        exact ⟨this.1, by omega⟩

variable {r : Ranges} {c : Nat}

theorem Ranges.mem_of_lastAtOrBefore {fuel i : Nat}
    (found : lastAtOrBefore (fun i => (r[i]?.getD (0, 0)).1) c fuel 0 r.size = some i)
    (inside : c ≤ (r[i]?.getD (0, 0)).2) : ∃ e ∈ r, e.1 ≤ c ∧ c ≤ e.2 := by
  obtain ⟨start, size⟩ := le_of_lastAtOrBefore found
  have here : r[i]?.getD (0, 0) = r[i] := by simp [size]
  rw [here] at start inside
  exact ⟨r[i], Array.getElem_mem size, start, inside⟩

theorem Ranges.mem_of_has (h : r.has c = true) : ∃ e ∈ r, e.1 ≤ c ∧ c ≤ e.2 := by
  unfold Ranges.has at h
  split at h
  · cases h
  · exact mem_of_lastAtOrBefore ‹_› (of_decide_eq_true h)

theorem Ranges.mem_of_offset? {d : Nat} (h : r.offset? c = some d) :
    ∃ e ∈ r, e.1 ≤ c ∧ c ≤ e.2 := by
  unfold Ranges.offset? at h
  split at h
  · cases h
  · split at h
    · exact mem_of_lastAtOrBefore ‹_› ‹_›
    · cases h

/-- Whether no code of an interval is a blank. -/
def isFilled (e : Nat × Nat) : Bool :=
  (List.range' e.1 (e.2 + 1 - e.1)).all fun c => !isBlank c

theorem isBlank_of_isFilled {e : Nat × Nat} (h : isFilled e = true) (low : e.1 ≤ c)
    (high : c ≤ e.2) : isBlank c = false := by
  have := List.all_eq_true.mp h c (List.mem_range'_1.mpr ⟨low, by omega⟩)
  simpa using this

theorem isFilled_ofText {s : List Char} (h : (intervals s).all isFilled = true) :
    ∀ e ∈ Ranges.ofText (String.ofList s), isFilled e = true := by
  rw [Ranges.ofText_ofList]
  simpa using h

set_option maxRecDepth 4000 in
theorem isFilled_decimals : ∀ e ∈ decimals, isFilled e = true := isFilled_ofText (by decide +kernel)

set_option maxRecDepth 4000 in
theorem isFilled_loneDigits : ∀ e ∈ loneDigits, isFilled e = true :=
  isFilled_ofText (by decide +kernel)

/-! ## Digits -/

theorem isBlank_of_decimalValue? {d : Nat} (h : decimalValue? c = some d) : isBlank c = false := by
  unfold decimalValue? at h
  split at h
  · split at h
    · rename_i digit
      simp only [isAsciiDigit, Bool.and_eq_true, decide_eq_true_eq] at digit
      simp [isBlank]
      omega
    · cases h
  · obtain ⟨n, hn, -⟩ := Option.map_eq_some_iff.mp h
    obtain ⟨e, he, low, high⟩ := Ranges.mem_of_offset? hn
    exact isBlank_of_isFilled (isFilled_decimals e he) low high

/-- A digit is no blank, also where it stands outside the place-value systems. -/
theorem isBlank_of_isDigit (h : isDigit c = true) : isBlank c = false := by
  rw [isDigit, Bool.or_eq_true] at h
  rcases h with decimal | lone
  · obtain ⟨d, hd⟩ := Option.isSome_iff_exists.mp decimal
    exact isBlank_of_decimalValue? hd
  · obtain ⟨e, he, low, high⟩ := Ranges.mem_of_has (Bool.and_eq_true_iff.mp lone).2
    exact isBlank_of_isFilled (isFilled_loneDigits e he) low high

theorem lt_of_decimalValue? {d : Nat} (h : decimalValue? c = some d) : d < 10 := by
  unfold decimalValue? at h
  split at h
  · split at h
    · rename_i digit
      simp only [isAsciiDigit, Bool.and_eq_true, decide_eq_true_eq] at digit
      cases h
      omega
    · cases h
  · obtain ⟨n, -, rfl⟩ := Option.map_eq_some_iff.mp h
    exact Nat.mod_lt n (by decide)

end Neogrammar.Text
