import Neogrammar.Proofs.Pattern.Rendering
import Neogrammar.Proofs.Pattern.Unfit
import Neogrammar.Proofs.Substitution

/-!
# Substitutions made of texts

Making a substitution of a pattern and a template ends in one of four ways: with a substitution
whose passes lack nothing on any text, with a fault that carries the name of the rule, or without
that name, for what stands in the pattern or for a group that the template calls by a wrong name.
-/
namespace Neogrammar.Substitution

open Pattern (Unfit Misnamed)

/-- Replace every match once, if neither a group nor a step is missing. -/
def applyOnce? (s : Substitution) (text : String) : Option String :=
  (s.compiled.replace? s.template text.toList).map String.ofList

theorem applyOnce?_eq {s : Substitution} (within : s.template.Within s.compiled.groups)
    (text : String) : s.applyOnce? text = some (s.applyOnce text) := by
  rw [applyOnce?, within.replace?]
  rfl

/-- What making a substitution of texts comes to. -/
inductive Made (pattern replacement rule : String) (limits : Limits) :
    Except Error Substitution → Prop
  | made (s : Substitution) (ofPattern : s.pattern = pattern)
      (ofReplacement : s.replacement = replacement) (within : s.limits = limits)
      (lacksNothing : ∀ text, s.applyOnce? text = some (s.applyOnce text)) :
      Made pattern replacement rule limits (.ok s)
  | malformedPattern (fault : Pattern.Fault)
      (refused : Pattern.parse pattern.toList = .error (.fault fault)) :
      Made pattern replacement rule limits (.error (.pattern rule fault pattern))
  | malformedTemplate (compiled : Pattern.Compiled) (fault : Pattern.Fault)
      (accepted : Pattern.parse pattern.toList = .ok compiled)
      (refused : readTemplate compiled replacement = .error (.fault fault)) :
      Made pattern replacement rule limits (.error (.pattern rule fault replacement))
  | unfit (refusal : Pattern.Refusal)
      (refused : Pattern.parse pattern.toList = .error refusal)
      (cause : Unfit pattern.toList refusal) :
      Made pattern replacement rule limits (.error (.ofRefusal rule pattern refusal))
  | misnamed (compiled : Pattern.Compiled) (name : String)
      (accepted : Pattern.parse pattern.toList = .ok compiled)
      (cause : Misnamed compiled replacement.toList name) :
      Made pattern replacement rule limits (.error (.unknownGroup name))

theorem readTemplate_meets (compiled : Pattern.Compiled) (replacement : String) :
    Meets (fun t => Pattern.Template.Within t compiled.groups)
      (Pattern.Amiss compiled replacement.toList) (readTemplate compiled replacement) :=
  .ite (fun _ => Pattern.template_meets compiled _)
    fun _ _ mem => List.mem_singleton.mp mem ▸ trivial

/-- Making a substitution of any pattern and template comes to one of these. -/
theorem ofTexts_made (pattern replacement rule : String) (limits : Limits) :
    Made pattern replacement rule limits (ofTexts pattern replacement rule limits) := by
  unfold ofTexts
  split
  · rename_i refusal refused
    rcases Pattern.excused_parse _ refusal refused with isFault | unfit
    · cases refusal with
      | fault fault => exact .malformedPattern fault refused
      | _ => exact isFault.elim
    · exact .unfit refusal refused unfit
  · rename_i compiled accepted
    have meets := readTemplate_meets compiled replacement
    split
    · rename_i refusal refused
      rcases meets.failsOnly refusal refused with isFault | ⟨name, rfl, misnamed⟩
      · cases refusal with
        | fault fault => exact .malformedTemplate compiled fault accepted refused
        | _ => exact isFault.elim
      · exact .misnamed compiled name accepted misnamed
    · rename_i template read
      exact .made _ rfl rfl rfl (applyOnce?_eq (meets.of_eq_ok read))

/-- A repeat that cannot be counted and a group that is not there are told without the rule. -/
theorem ofTexts_unlabelled :
    ofTexts "a\x7b4294967296\x7d" "b" "r" .default = .error .repetitionTooLarge ∧
      ofTexts "a" "\\g<x>" "r" .default = .error (.unknownGroup "x") ∧
      ∀ fault source, Error.repetitionTooLarge ≠ .pattern "r" fault source ∧
        Error.unknownGroup "x" ≠ .pattern "r" fault source := by
  refine ⟨?_, ?_, fun _ _ => ⟨Error.noConfusion, Error.noConfusion⟩⟩
  · rfl
  · rfl

end Neogrammar.Substitution
