import Neogrammar.Pattern.Reader
import Neogrammar.Proofs.Outcome

/-!
# Steps of a reader

A reader steps over one symbol at a time. Only a backslash that ends the text can stop it, so its
steps are stated in front of texts that are not just a backslash.
-/
namespace Neogrammar.Pattern

namespace Reader

/-- A text that a reader may stand in front of. -/
def Whole (s : List Char) : Prop := s ≠ ['\\']

theorem whole_nil : Whole [] := by simp [Whole]

theorem whole_cons {c : Char} {s : List Char} (h : c ≠ '\\') : Whole (c :: s) := by
  simp [Whole, h]

theorem whole_escaped {c : Char} {s : List Char} : Whole ('\\' :: c :: s) := by simp [Whole]

/-- What starts a text keeps it whole, if it is not empty and whole itself. -/
theorem Whole.append {s : List Char} (h : Whole s) (nonempty : s ≠ []) (more : List Char) :
    Whole (s ++ more) := by
  cases s with
  | nil => exact absurd rfl nonempty
  | cons c s =>
    intro he
    simp only [List.cons_append, List.cons.injEq, List.append_eq_nil_iff] at he
    obtain ⟨rfl, rfl, -⟩ := he
    exact h rfl

variable {p : Nat} {c : Char} {rest : List Char}

theorem settle_whole (h : Whole rest) : settle p rest = .ok ⟨p, rest⟩ := if_neg h

@[simp] theorem next_nil : next ⟨p, []⟩ = none := rfl

theorem next_plain (h : c ≠ '\\') : next ⟨p, c :: rest⟩ = some (.plain c) := by
  unfold next
  split <;> simp_all

@[simp] theorem next_escaped : next ⟨p, '\\' :: c :: rest⟩ = some (.escaped c) := rfl

theorem advance_plain (h : c ≠ '\\') (hr : Whole rest) :
    advance ⟨p, c :: rest⟩ = .ok ⟨p + 1, rest⟩ := by
  unfold advance
  split <;> simp_all [settle_whole]

theorem advance_escaped (hr : Whole rest) :
    advance ⟨p, '\\' :: c :: rest⟩ = .ok ⟨p + 2, rest⟩ := settle_whole hr

theorem accept_seen (h : c ≠ '\\') (hr : Whole rest) :
    accept ⟨p, c :: rest⟩ c = .ok (true, ⟨p + 1, rest⟩) := by
  simp [accept, sees, next_plain h, advance_plain h hr, pure_eq_ok]

theorem accept_unseen {r : Reader} (h : r.next ≠ some (.plain c)) :
    r.accept c = .ok (false, r) := by
  simp [accept, sees, h]

/-- A name without backslashes is read up to the first terminator. -/
theorem takeUntil_name {terminator : Char} {what : String} {fuel : Nat} (so name : List Char)
    (ht : terminator ≠ '\\') (hn : ∀ c ∈ name, c ≠ '\\' ∧ c ≠ terminator) (hr : Whole rest)
    (nonempty : so ++ name ≠ []) (enough : name.length < fuel) :
    takeUntil terminator what fuel so ⟨p, name ++ terminator :: rest⟩
      = .ok (so ++ name, ⟨p + name.length + 1, rest⟩) := by
  induction name generalizing so fuel p with
  | nil =>
    obtain ⟨fuel, rfl⟩ : ∃ n, fuel = n + 1 := ⟨fuel - 1, by simp at enough; omega⟩
    rw [List.append_nil] at nonempty
    simp [takeUntil, next_plain ht, advance_plain ht hr, nonempty, pure_eq_ok]
  | cons c name ih =>
    rw [List.length_cons] at enough
    obtain ⟨fuel, rfl⟩ : ∃ n, fuel = n + 1 := ⟨fuel - 1, by omega⟩
    obtain ⟨hc, hct⟩ := hn c (by simp)
    have tail : Whole (name ++ terminator :: rest) := by
      cases name with
      | nil => exact whole_cons ht
      | cons d name => exact whole_cons (hn d (by simp)).1
    have inner : ∀ d ∈ name, d ≠ '\\' ∧ d ≠ terminator := fun d hd => hn d (by simp [hd])
    have step : takeUntil terminator what fuel (so ++ [c]) ⟨p + 1, name ++ terminator :: rest⟩
        = .ok (so ++ [c] ++ name, ⟨p + 1 + name.length + 1, rest⟩) :=
      ih (so ++ [c]) inner (by simp) (by omega)
    simp only [List.cons_append, takeUntil, next_plain hc, advance_plain hc tail, ok_bind, hct,
      ↓reduceIte, step, List.append_assoc, List.nil_append, List.length_cons]
    rw [show p + 1 + name.length = p + (name.length + 1) by omega]

/-- A name without backslashes is read back in front of its terminator. -/
theorem name_of_text {terminator : Char} {what s : String} (ht : terminator ≠ '\\')
    (hs : ∀ c ∈ s.toList, c ≠ '\\' ∧ c ≠ terminator) (hr : Whole rest) (nonempty : s.toList ≠ []) :
    name ⟨p, s.toList ++ terminator :: rest⟩ terminator what
      = .ok (s, ⟨p + s.toList.length + 1, rest⟩) := by
  have enough : s.toList.length < (s.toList ++ terminator :: rest).length + 1 := by
    rw [List.length_append]
    omega
  have read : takeUntil terminator what ((s.toList ++ terminator :: rest).length + 1) []
      ⟨p, s.toList ++ terminator :: rest⟩ = .ok (s.toList, ⟨p + s.toList.length + 1, rest⟩) :=
    takeUntil_name [] s.toList ht hs hr (by simpa using nonempty) enough
  simp only [name, read, ok_bind, pure_eq_ok, String.ofList_toList]

end Reader

end Neogrammar.Pattern
