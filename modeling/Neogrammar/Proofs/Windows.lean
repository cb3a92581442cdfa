import Mathlib.Data.List.Basic

/-!
# Windows of a text

A window asks something of each of a fixed number of neighbouring characters. A text is rewritten
from left to right: at the leftmost window that fits, the characters in its middle make way for the
replacement, and the scan goes on behind it.
-/
namespace Neogrammar

/-- Whether a text begins with characters that pass the tests, one after the other. -/
def fits : List (Char → Bool) → List Char → Bool
  | [], _ => true
  | _ :: _, [] => false
  | test :: tests, c :: s => test c && fits tests s

@[simp] theorem fits_nil (s : List Char) : fits [] s = true := by cases s <;> rfl

@[simp] theorem fits_cons_nil (test : Char → Bool) (tests : List (Char → Bool)) :
    fits (test :: tests) [] = false := rfl

@[simp] theorem fits_cons_cons (test : Char → Bool) (tests : List (Char → Bool)) (c : Char)
    (s : List Char) : fits (test :: tests) (c :: s) = (test c && fits tests s) := rfl

theorem fits_append (tests more : List (Char → Bool)) (s : List Char) :
    fits (tests ++ more) s = (fits tests s && fits more (s.drop tests.length)) := by
  induction tests generalizing s with
  | nil => simp
  | cons test tests ih =>
    cases s with
    | nil => simp
    | cons c s => simp [ih, Bool.and_assoc]

theorem length_le_of_fits {tests : List (Char → Bool)} {s : List Char} (h : fits tests s = true) :
    tests.length ≤ s.length := by
  induction tests generalizing s with
  | nil => simp
  | cons test tests ih =>
    cases s with
    | nil => simp at h
    | cons c s =>
      simp only [fits_cons_cons, Bool.and_eq_true] at h
      simpa using ih h.2

/-- What a rewriting asks of the characters before, at and after its place, and what it puts
there. -/
structure Window where
  before : List (Char → Bool)
  target : List (Char → Bool)
  after : List (Char → Bool)
  replacement : List Char

namespace Window

def tests (w : Window) : List (Char → Bool) := w.before ++ w.target ++ w.after

def length (w : Window) : Nat := w.tests.length

/-- What a window that fits at the start of a text becomes. -/
def rewritten (w : Window) (s : List Char) : List Char :=
  s.take w.before.length ++ w.replacement
    ++ (s.drop (w.before.length + w.target.length)).take w.after.length

/-- Rewrite a text from left to right. -/
def rewrite (w : Window) : List Char → List Char
  | [] => []
  | c :: s =>
    if fits w.tests (c :: s) then w.rewritten (c :: s) ++ w.rewrite (s.drop (w.length - 1))
    else c :: w.rewrite s
termination_by s => s.length

variable {w : Window}

@[simp] theorem rewrite_nil : w.rewrite [] = [] := by rw [rewrite]

theorem rewrite_misfit {c : Char} {s : List Char} (h : fits w.tests (c :: s) = false) :
    w.rewrite (c :: s) = c :: w.rewrite s := by
  rw [rewrite]
  simp [h]

theorem rewrite_fit {s : List Char} (nonempty : 0 < w.length) (h : fits w.tests s = true) :
    w.rewrite s = w.rewritten s ++ w.rewrite (s.drop w.length) := by
  cases s with
  | nil =>
    have short := length_le_of_fits h
    rw [List.length_nil] at short
    exact absurd nonempty (by rw [length]; omega)
  | cons c s =>
    obtain ⟨n, hn⟩ : ∃ n, w.length = n + 1 := ⟨w.length - 1, by omega⟩
    rw [rewrite, hn]
    simp [h]

/-- A text in which no window fits stays as it is. -/
theorem rewrite_of_misfits {s : List Char}
    (h : ∀ i < s.length, fits w.tests (s.drop i) = false) : w.rewrite s = s := by
  induction s with
  | nil => exact rewrite_nil
  | cons c s ih =>
    rw [rewrite_misfit (h 0 (by simp))]
    have tail : ∀ i < s.length, fits w.tests (s.drop i) = false := by
      intro i hi
      exact h (i + 1) (by simpa using hi)
    rw [ih tail]

/-- The text before the leftmost window stays, the window is rewritten, and what comes behind it is
scanned anew. -/
theorem rewrite_leftmost {s : List Char} (pre : List Char) (nonempty : 0 < w.length)
    (h : ∀ i < pre.length, fits w.tests ((pre ++ s).drop i) = false)
    (fit : fits w.tests s = true) :
    w.rewrite (pre ++ s) = pre ++ (w.rewritten s ++ w.rewrite (s.drop w.length)) := by
  induction pre with
  | nil => exact rewrite_fit nonempty fit
  | cons c pre ih =>
    have head : fits w.tests (c :: (pre ++ s)) = false := h 0 (by simp)
    have tail : ∀ i < pre.length, fits w.tests ((pre ++ s).drop i) = false := by
      intro i hi
      exact h (i + 1) (by simpa using hi)
    rw [List.cons_append, rewrite_misfit head, ih tail, List.cons_append]

end Window
end Neogrammar
