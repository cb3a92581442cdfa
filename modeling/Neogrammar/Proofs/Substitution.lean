import Neogrammar.Substitution
import Neogrammar.Proofs.Outcome

/-!
# Runs of substitutions

A run over a text either returns a text or is stopped by its limits.
-/
namespace Neogrammar

/-- A run was stopped: by the count of its passes or by the length of its text. -/
def Error.IsStop (e : Error) : Prop :=
  ∃ pattern passes length, e = .diverges pattern passes length

/-- A text may keep its length. -/
theorem Limits.le_maxLength {limits : Limits} (margin : 0 ≤ limits.growthMargin) (n : Nat) :
    (n : Int) ≤ limits.maxLength n := by
  have : (n : Int) + limits.growthMargin ≤ limits.maxLength n := Int.le_max_right ..
  omega

namespace Substitution

/-- A substitution that was made keeps the texts it was made of, and what they were read as. -/
theorem ofTexts_eq_ok_iff {pattern replacement rule : String} {limits : Limits}
    {s : Substitution} : ofTexts pattern replacement rule limits = .ok s ↔
      Pattern.parse pattern.toList = .ok s.compiled
        ∧ readTemplate s.compiled replacement = .ok s.template
        ∧ s.pattern = pattern ∧ s.replacement = replacement ∧ s.limits = limits := by
  obtain ⟨pattern', replacement', limits', compiled, template⟩ := s
  unfold ofTexts
  cases Pattern.parse pattern.toList with
  | error refusal => simp
  | ok c =>
    dsimp only
    cases read : readTemplate c replacement with
    | error refusal =>
      simp only [reduceCtorEq, Except.ok.injEq, false_iff]
      rintro ⟨rfl, read', -⟩
      rw [read'] at read
      cases read
    | ok t =>
      simp only [Except.ok.injEq, mk.injEq]
      constructor
      · rintro ⟨rfl, rfl, rfl, rfl, rfl⟩
        exact ⟨rfl, read, rfl, rfl, rfl⟩
      · rintro ⟨rfl, read', rfl, rfl, rfl⟩
        rw [read'] at read
        cases read
        exact ⟨rfl, rfl, rfl, rfl, rfl⟩

theorem passes_failed {s : Substitution} {bound : Int} {left done : Nat} {text : String} {e : Error}
    (h : s.passes bound left done text = .error e) : e.IsStop := by
  induction left generalizing done text with
  | zero =>
    cases h
    exact ⟨_, _, _, rfl⟩
  | succ left ih =>
    simp only [passes] at h
    split at h
    · cases h
    · split at h
      · cases h
        exact ⟨_, _, _, rfl⟩
      · exact ih h

end Substitution

namespace Pipeline

theorem runText_failed {subs : Pipeline} {text : String} {e : Error}
    (h : subs.runText text = .error e) : e.IsStop := by
  induction subs generalizing text with
  | nil => cases h
  | cons s rest ih =>
    simp only [runText, bind_eq_error_iff] at h
    rcases h with h | ⟨result, -, h⟩
    · exact s.passes_failed h
    · exact ih h

theorem run_text_failed {subs : Pipeline} {text : String} {e : Error}
    (h : subs.run (.text text) = .error e) : e.IsStop :=
  runText_failed (map_eq_error_iff.mp h)

theorem run_text_ok {subs : Pipeline} {text : String} {d : Datum}
    (h : subs.run (.text text) = .ok d) : ∃ result, d = .text result := by
  obtain ⟨result, -, rfl⟩ := map_eq_ok_iff.mp h
  exact ⟨result, rfl⟩

end Pipeline
end Neogrammar
