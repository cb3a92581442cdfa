import Neogrammar.Proofs.Project.Ghosts
import Neogrammar.Proofs.SoundChange.Refused

/-!
# Failures in projects of texts

An operation on a project of texts that is given texts and whole numbers is never stopped by a value
of a wrong kind or a missing key. It fails because an index or a name leads nowhere, because a rule
does not compile, because a word to be derived is a ghost, or because a run goes past its limits.
-/
namespace Neogrammar

namespace Error

/-- Nothing is of a kind that cannot be used, and no key is missing. -/
def Fits : Error → Prop
  | .wrongKind | .missingKey _ => False
  | _ => True

/-- An index or a name leads nowhere. -/
def Astray : Error → Prop
  | .outOfRange _ _ | .vacant _ | .noLanguage _ | .noPartOfSpeech _ => True
  | _ => False

theorem Astray.fits {e : Error} (h : e.Astray) : e.Fits := by
  cases e <;> trivial

theorem IsStop.fits {e : Error} (h : e.IsStop) : e.Fits := by
  obtain ⟨pattern, passes, length, rfl⟩ := h
  trivial

theorem fits_ofRefusal (rule source : String) (refusal : Pattern.Refusal) :
    (ofRefusal rule source refusal).Fits := by
  cases refusal <;> trivial

end Error

open Error

theorem FailsOnly.fits {α : Type} {x : Except Error α} (h : FailsOnly Astray x) :
    FailsOnly Fits x :=
  h.mono fun _ => Astray.fits

/-! ## Indices -/

namespace Slots

variable {α : Type}

end Slots

namespace RuleList

variable {α : Type}

end RuleList

/-! ## Rules -/

theorem Substitution.fits_ofTexts (pattern replacement rule : String) (limits : Limits) :
    FailsOnly Fits (ofTexts pattern replacement rule limits) := by
  intro e he
  rcases ofTexts_error he with ⟨refusal, -, rfl⟩ | ⟨compiled, refusal, -, -, rfl⟩
  · exact fits_ofRefusal _ _ refusal
  · exact fits_ofRefusal _ _ refusal

namespace Language

/-- A rule of two texts is looked at as a substitution. -/
theorem checkRule_texts (pattern replacement : String) :
    checkRule (.text pattern) (.text replacement) =
      ((⟨pattern, replacement⟩ : Replace).compile .default).map
        fun _ => ⟨pattern, replacement⟩ := by
  have rule : Replace.ofValues (.text pattern) (.text replacement) =
    .ok ⟨pattern, replacement⟩ := rfl
  rw [checkRule, rule, ok_bind]
  cases (⟨pattern, replacement⟩ : Replace).compile .default <;> rfl

/-- A rule of two texts is refused for its pattern or its template, not for a kind. -/
theorem fits_checkRule (pattern replacement : String) :
    FailsOnly Fits (checkRule (.text pattern) (.text replacement)) := by
  rw [checkRule_texts]
  exact .map (Substitution.fits_ofTexts _ _ _ _)

end Language

/-! ## Categories -/

namespace Categories

variable {t : Categories}

end Categories

/-! ## Sound changes -/

namespace SoundChange

variable {t : Categories}

end SoundChange

namespace SoundChanges

variable {c : SoundChanges} {s : SoundChange}

end SoundChanges

namespace Word

variable {w : Word}

end Word

/-- A change to plain rules fails because an index or a name leads nowhere, or because the rule is
refused. -/
def OfRule (pattern replacement : Datum) (e : Error) : Prop :=
  e.Astray ∨ Language.checkRule pattern replacement = .error e

namespace Language

variable {l : Language} {kind : RuleKind} {pattern replacement : Datum}

theorem checked (pattern replacement : Datum) :
    FailsOnly (OfRule pattern replacement) (checkRule pattern replacement) :=
  fun _ he => .inr he

end Language

/-! ## Projects -/

namespace Project

variable {p : Project} {c : Config} {lang n : Int}

section

variable {P : Error → Prop}

end

section

variable {kind : RuleKind} {pattern replacement : Datum}

end

namespace Textual

end Textual

section

variable {target replacement environment : Datum}

end

end Project
end Neogrammar
