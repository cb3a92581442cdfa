import Neogrammar.Proofs.Descent.InPlace
import Neogrammar.Proofs.Project.Derivation

/-!
# The two modes of a derivation

A derivation in a transaction and one that works in place have the same outcome, and the same
project where they return. Where they fail, the one in place has at most refreshed the words
before the failure and set the ancestor of the language.
-/
namespace Neogrammar.Project

variable {p : Project} {c : Config} {lang ancestor : Int}

/-- Carry the vocabulary of `ancestor` into `lang`, writing each word when it is derived. -/
def deriveInPlace (p : Project) (c : Config) (lang ancestor : Int) :
    Project × Except Error Descent.Report :=
  match p.derivation c lang ancestor with
  | .error e => (p, .error e)
  | .ok (l, a, ps) =>
    let (l, outcome) := Descent.deriveInPlace l a lang ancestor ps
    (p.withLanguage lang l, outcome)

/-- What a derivation needs does not depend on its mode. -/
theorem derivation_mode (transactional : Bool) :
    p.derivation { c with transactional } lang ancestor = p.derivation c lang ancestor := rfl

theorem derive_in_place (p : Project) (c : Config) (lang ancestor : Int) :
    p.derive { c with transactional := false } lang ancestor =
      p.deriveInPlace c lang ancestor := by
  rw [derive, deriveInPlace, derivation_mode]
  cases p.derivation c lang ancestor with
  | error e => rfl
  | ok found => simp only [Descent.derive_in_place]

/-- The outcome does not depend on the mode. -/
theorem derive_outcome (transactional : Bool) :
    (p.derive { c with transactional } lang ancestor).2 = (p.derive c lang ancestor).2 := by
  simp only [derive, derivation_mode]
  cases p.derivation c lang ancestor with
  | error e => rfl
  | ok found =>
    obtain ⟨l, a, ps⟩ := found
    simp only [Descent.derive]
    cases Descent.refresh ancestor ps l.vocab.items a.vocab.cells with
    | mk fuses result =>
      cases result with
      | error e => rfl
      | ok left => cases h : Descent.inherit ancestor ps 0 left <;> simp only [h]

/-- Where a derivation returns, the project after it does not depend on the mode. -/
theorem derive_state {report : Descent.Report} (transactional : Bool)
    (h : (p.derive c lang ancestor).2 = .ok report) :
    (p.derive { c with transactional } lang ancestor).1 = (p.derive c lang ancestor).1 := by
  cases hd : p.derivation c lang ancestor with
  | error e =>
    simp only [derive, hd] at h
    cases h
  | ok found =>
    obtain ⟨l, a, ps⟩ := found
    have hd' : p.derivation { c with transactional } lang ancestor = .ok (l, a, ps) := hd
    rw [derive_of_derivation hd] at h ⊢
    rw [derive_of_derivation hd']
    cases hr : Descent.refresh ancestor ps l.vocab.items a.vocab.cells with
    | mk fuses result =>
      cases result with
      | error e =>
        rw [Descent.derive_eq_error_of_refresh hr] at h
        cases h
      | ok left =>
        cases hi : Descent.inherit ancestor ps 0 left with
        | error e =>
          rw [Descent.derive_eq_error_of_inherit hr hi] at h
          cases h
        | ok fresh => rw [Descent.derive_eq_ok hr hi, Descent.derive_eq_ok hr hi]

/-- What a derivation in place that fails leaves behind: the project as it was, if it does not come
to its scan, and else the vocabulary of the language partly refreshed. -/
theorem derive_in_place_failed {e : Error} (hc : c.transactional = false)
    (h : (p.derive c lang ancestor).2 = .error e) :
    (p.derive c lang ancestor).1 = p ∨
      ∃ l a ps vocab stop, p.derivation c lang ancestor = .ok (l, a, ps) ∧
        (p.derive c lang ancestor).1 =
          p.withLanguage lang { l with ancestor := some ancestor, vocab } ∧
        Descent.StopsBefore ps ancestor a.vocab l.vocab e stop ∧
        Descent.Partly ps ancestor a.vocab l.vocab vocab stop := by
  rcases derive_failed h with ⟨-, hp⟩ | ⟨l, a, ps, fuses, hd, hp, hfailed⟩
  · exact .inl hp
  · right
    obtain ⟨stop, hstop, hpartly⟩ : ∃ stop,
        Descent.StopsBefore ps ancestor a.vocab l.vocab e stop ∧
          Descent.Partly ps ancestor a.vocab l.vocab (Descent.fuseAll l.vocab fuses) stop := by
      rcases hfailed with hr | ⟨left, hr, hi⟩
      · exact Descent.partly_of_refresh_failed hr
      · exact Descent.partly_of_inherit_failed hr hi
    rw [hc] at hp
    exact ⟨l, a, ps, _, stop, hd, hp, hstop, hpartly⟩

/-- A derivation in a transaction and one that writes in place either both return, with the same
report and the same project, or both fail with the same error. Where they fail, the one in place
has changed at most the ancestor of the language and the computed forms of words that have exactly
one coordinate, into the ancestor, and stand before the word where it stopped. -/
theorem derive_modes_agree (p : Project) (c : Config) (lang ancestor : Int) :
    p.derive { c with transactional := false } lang ancestor = p.deriveInPlace c lang ancestor ∧
      (p.derive { c with transactional := true } lang ancestor).2 =
        (p.deriveInPlace c lang ancestor).2 ∧
      (∀ report, (p.deriveInPlace c lang ancestor).2 = .ok report →
        (p.derive { c with transactional := true } lang ancestor).1 =
          (p.deriveInPlace c lang ancestor).1) ∧
      ∀ e, (p.deriveInPlace c lang ancestor).2 = .error e →
        (p.deriveInPlace c lang ancestor).1 = p ∨
          ∃ l a ps vocab stop, p.derivation c lang ancestor = .ok (l, a, ps) ∧
            (p.deriveInPlace c lang ancestor).1 =
              p.withLanguage lang { l with ancestor := some ancestor, vocab } ∧
            Descent.StopsBefore ps ancestor a.vocab l.vocab e stop ∧
            Descent.Partly ps ancestor a.vocab l.vocab vocab stop := by
  rw [← derive_in_place]
  refine ⟨rfl, ?_, ?_, ?_⟩
  · rw [derive_outcome true, derive_outcome false]
  · intro report h
    exact derive_state (c := { c with transactional := false }) true h
  · intro e h
    exact derive_in_place_failed (c := { c with transactional := false }) rfl h

/-- Word 3 of the descendant is a ghost; the one in place has refreshed word 0 by then. -/
theorem derive_modes_agree_isles :
    ((isles 3).derive .default 1 0).2 = .error (.ghost 3) ∧
      ((isles 3).deriveInPlace .default 1 0).2 = .error (.ghost 3) ∧
      ∃ l a ps vocab stop, (isles 3).derivation .default 1 0 = .ok (l, a, ps) ∧
        ((isles 3).deriveInPlace .default 1 0).1 =
          (isles 3).withLanguage 1 { l with ancestor := some 0, vocab } ∧
        Descent.StopsBefore ps 0 a.vocab l.vocab (.ghost 3) stop ∧
        Descent.Partly ps 0 a.vocab l.vocab vocab stop := by
  have hstaged : ((isles 3).derive .default 1 0).2 = .error (.ghost 3) := rfl
  obtain ⟨-, hsame, -, hfailed⟩ := derive_modes_agree (isles 3) .default 1 0
  have hdirect : ((isles 3).deriveInPlace .default 1 0).2 = .error (.ghost 3) :=
    hsame.symm.trans hstaged
  refine ⟨hstaged, hdirect, (hfailed _ hdirect).resolve_left ?_⟩
  intro hkept
  have hancestor : (((isles 3).deriveInPlace .default 1 0).1.language 1).map (·.ancestor) =
      .ok (some 0) := rfl
  rw [hkept] at hancestor
  cases hancestor

end Neogrammar.Project
