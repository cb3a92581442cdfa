import Neogrammar.Proofs.Project.Misfits
import Neogrammar.Proofs.Request.Checked
import Neogrammar.Proofs.Request.Failures

/-!
# Failures of requests that were checked

A check looks at the kinds of all fields but the target and the replacement of a rule, and at the
pattern of a plain rule but not at its template. What is left to fail for a kind, then, is a rule
with such a part that is no text, and what is left to be refused of a plain rule is its template.
-/
namespace Neogrammar.Request

open Error

variable {cfg : Config} {p q : Project} {c : Change} {o : Operation} {name : String} {d : Datum}

/-! ## What a check grants -/

theorem Formed.texts (formed : Formed o c) : TextFields c :=
  (fitting_of_kindComplaints formed.kinds).texts

theorem Formed.content (formed : Formed .addCategory c) (hd : need c "content" = .ok d) :
    ∃ graphemes, d.elements? = some graphemes ∧ ∀ g ∈ graphemes, g.isText = true := by
  have nothing := (List.append_eq_nil_iff.mp formed.categories).2
  have value : c.fieldOrNull "content" = d := by
    simp [Change.fieldOrNull, need_eq_ok_iff.mp hd]
  have isText_of_isGrapheme {g : Datum} (hg : isGrapheme g = true) : g.isText = true := by
    cases g <;> first | rfl | cases hg
  simp only [contentComplaints, value] at nothing
  cases d with
  | list items =>
    dsimp only at nothing
    split at nothing
    · cases nothing
    · rename_i graphemes
      simp only [Bool.or_eq_true, Bool.not_eq_true', not_or, Bool.not_eq_false] at graphemes
      exact ⟨items, rfl, fun g hg => isText_of_isGrapheme (List.all_eq_true.mp graphemes.2 g hg)⟩
  | text s =>
    refine ⟨_, rfl, fun g hg => ?_⟩
    obtain ⟨x, -, rfl⟩ := List.mem_map.mp hg
    rfl
  | _ => cases nothing

/-- The fields of a rule that a check takes as they are. -/
def Operation.uncheckedFields (o : Operation) : List String :=
  if o.bringsSoundChange then ["target", "replacement"]
  else if o.bringsPlainRule then ["replacement"]
  else []

theorem Operation.replacement_unchecked (brings : o.bringsPlainRule = true) :
    "replacement" ∈ o.uncheckedFields := by
  unfold uncheckedFields
  rw [if_pos brings]
  split <;> simp

/-- The fields that a check takes as they are hold texts. -/
def TextParts (o : Operation) (c : Change) : Prop :=
  ∀ name ∈ o.uncheckedFields, ∀ d, c.field? name = some d → d.isText = true

section

variable {α : Type} {kind : RuleKind}

/-- An index or a name leads nowhere, or a plain rule that a change brings is refused. -/
def OfPlainRule (o : Operation) (c : Change) (e : Error) : Prop :=
  e.Astray ∨ o.bringsPlainRule = true ∧ ∃ pattern replacement, c.field? "pattern" = some pattern ∧
    c.field? "replacement" = some replacement ∧ Language.checkRule pattern replacement = .error e

/-- A change of a plain rule whose replacement is a text is not refused for a kind. -/
theorem OfPlainRule.fits {e : Error} (h : OfPlainRule o c e) (texts : TextFields c)
    (parts : TextParts o c) : e.Fits := by
  rcases h with astray | ⟨brings, pattern, template, hp, hr, refused⟩
  · exact astray.fits
  · obtain ⟨pattern, rfl⟩ := Datum.isText_iff.mp (texts "pattern" (by simp [textFields]) _ hp)
    obtain ⟨template, rfl⟩ := Datum.isText_iff.mp
      (parts "replacement" (Operation.replacement_unchecked brings) _ hr)
    exact Language.fits_checkRule pattern template e refused

end

/-! ## Every operation -/

end Neogrammar.Request
