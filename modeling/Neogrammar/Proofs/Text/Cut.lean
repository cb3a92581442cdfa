import Mathlib.Logic.Basic
import Neogrammar.Text.Ranges

/-!
# Cutting texts

A text without separators is one part, a separator ends a part, and parts that were joined by a
separator are cut out again.
-/
namespace Neogrammar.Text

variable {p : Char → Bool} {c : Char} {s : List Char}

theorem cutAt_none (h : ∀ c ∈ s, p c = false) : cutAt p s = [s] := by
  induction s with
  | nil => rfl
  | cons c s ih => simp [cutAt, h c (by simp), ih fun d hd => h d (by simp [hd])]

theorem cutAt_append (h : ∀ d ∈ s, p d = false) (hc : p c = true) (rest : List Char) :
    cutAt p (s ++ c :: rest) = s :: cutAt p rest := by
  induction s with
  | nil => simp [cutAt, hc]
  | cons d s ih => simp [cutAt, h d (by simp), ih fun e he => h e (by simp [he])]

/-- There is one part more than there are separators. -/
theorem length_cutAt (p : Char → Bool) (s : List Char) :
    (cutAt p s).length = s.countP p + 1 := by
  induction s with
  | nil => rfl
  | cons c s ih =>
    rw [cutAt, List.countP_cons]
    split
    · rename_i separates
      rw [List.length_cons, ih, if_pos separates]
    · rename_i empty
      rw [empty] at ih
      exact absurd ih (by simp)
    · rename_i plain first
      rw [first, List.length_cons] at ih
      rw [List.length_cons, ih, plain]
      rfl

/-- No separator is left in a part. -/
theorem not_mem_cutAt : ∀ part ∈ cutAt p s, ∀ d ∈ part, p d = false := by
  induction s with
  | nil => simp [cutAt]
  | cons d s ih =>
    rw [cutAt]
    split
    · simpa using ih
    · rename_i hd _
      simpa using hd
    · rename_i part parts hd he
      rw [he, List.forall_mem_cons] at ih
      simpa [hd] using ih

theorem cutAt_intercalate {first : List Char} {parts : List (List Char)} (hc : p c = true)
    (h : ∀ part ∈ first :: parts, ∀ d ∈ part, p d = false) :
    cutAt p (List.intercalate [c] (first :: parts)) = first :: parts := by
  induction parts generalizing first with
  | nil => simpa using cutAt_none (h first List.mem_cons_self)
  | cons second parts ih =>
    rw [List.forall_mem_cons] at h
    have joined : List.intercalate [c] (first :: second :: parts) =
        first ++ c :: List.intercalate [c] (second :: parts) := by
      simp [List.intercalate]
    rw [joined, cutAt_append h.1 hc, ih h.2]

end Neogrammar.Text
