import Neogrammar.Proofs.Project.Ghosts
import Neogrammar.Proofs.SoundChange.Refused

/-!
# Derivations from the language itself

Whatever a project holds, rules that do not compile and runs past their limits fail with errors of
their own, and so do indices that lead nowhere and ghosts. So a derivation is refused as one of a
language from itself exactly if the two indices are the same, and for nothing that it comes upon
later.
-/
namespace Neogrammar

namespace Error

/-- What compiling and running rules may fail with. -/
def OfRules : Error → Prop
  | .environment _ | .target _ | .pattern _ _ _ | .diverges _ _ _ | .wrongKind | .number _
  | .repetitionTooLarge | .codeTooLarge | .rivalAlphabets | .unknownGroup _ | .noGrapheme => True
  | _ => False

/-- Any error but that of a derivation from the language itself. -/
def NotSelf : Error → Prop
  | .selfAncestor _ => False
  | _ => True

theorem OfRules.notSelf {e : Error} (h : e.OfRules) : e.NotSelf := by
  cases e with
  | selfAncestor n => exact h
  | _ => trivial

theorem ofRules_ofRefusal (rule source : String) (refusal : Pattern.Refusal) :
    (ofRefusal rule source refusal).OfRules := by
  cases refusal <;> trivial

theorem IsStop.ofRules {e : Error} (h : e.IsStop) : e.OfRules := by
  obtain ⟨pattern, passes, length, rfl⟩ := h
  trivial

end Error

open Error

/-! ## Compiling -/

theorem Substitution.ofRules_ofTexts (pattern replacement rule : String) (limits : Limits) :
    FailsOnly OfRules (ofTexts pattern replacement rule limits) := by
  intro e he
  rcases ofTexts_error he with ⟨refusal, -, rfl⟩ | ⟨compiled, refusal, -, -, rfl⟩
  · exact ofRules_ofRefusal _ _ refusal
  · exact ofRules_ofRefusal _ _ refusal

theorem Sign.ofRules_ofDatum (d : Datum) : FailsOnly OfRules (ofDatum d) := by
  have item (d : Datum) : FailsOnly OfRules (ofItem d) := by
    unfold ofItem
    split
    · split <;> exact .ok _
    · exact .ite (fun _ => .ok _) fun _ => .error trivial
  unfold ofDatum
  split
  · exact .ok _
  · split
    · exact .mapM fun d _ => item d
    · exact .error trivial

namespace Categories

variable (t : Categories)

theorem ofRules_classOf (graphemes : List Datum) : FailsOnly OfRules (classOf graphemes) := by
  unfold classOf
  split
  · exact .ok _
  · exact .error trivial

theorem ofRules_referenced (d : Datum) : FailsOnly OfRules (t.referenced d) :=
  (Sign.ofRules_ofDatum d).bind fun _ _ => .ok _

theorem ofRules_expandSigns (signs : List Sign) : FailsOnly OfRules (t.expandSigns signs) := by
  induction signs with
  | nil => exact .ok _
  | cons sign signs ih =>
    have first : FailsOnly OfRules (t.expandSign sign) := by
      unfold expandSign
      split
      · split
        · exact ofRules_classOf _
        · exact .ok _
      · exact .ok _
      · exact .error trivial
    exact first.bind fun _ _ => ih.bind fun _ _ => .ok _

theorem ofRules_expand (d : Datum) : FailsOnly OfRules (t.expand d) :=
  (Sign.ofRules_ofDatum d).bind fun _ _ => t.ofRules_expandSigns _

theorem ofRules_joinTexts (parts : List Datum) : FailsOnly OfRules (joinTexts parts) := by
  induction parts with
  | nil => exact .ok _
  | cons part parts ih =>
    cases part with
    | text s => exact ih.bind fun _ _ => .ok _
    | _ => exact .error trivial

theorem ofRules_resolve (d : Datum) (index : Int) (asPattern : Bool) :
    FailsOnly OfRules (t.resolve d index asPattern) := by
  have sign (sign : Sign) : FailsOnly OfRules (t.resolveSign index asPattern sign) := by
    unfold resolveSign
    split
    · split
      · exact .ok _
      · split
        · exact .error trivial
        · exact .ok _
        · exact .ite (fun _ => .error trivial) fun _ => .ok _
    · exact .ok _
  exact (Sign.ofRules_ofDatum d).bind fun _ _ =>
    (FailsOnly.mapM fun s _ => sign s).bind fun _ _ => ofRules_joinTexts _

end Categories

namespace SoundChange

variable (t : Categories) (s : SoundChange) (limits : Limits)

theorem ofRules_substitutionFor (before after : String) (target replacement : List Char) :
    FailsOnly OfRules (substitutionFor t s before after target replacement limits) :=
  (t.ofRules_expand _).bind fun _ _ => (t.ofRules_expand _).bind fun _ _ =>
    Substitution.ofRules_ofTexts _ _ _ limits

theorem ofRules_compile : FailsOnly OfRules (s.compile t limits) := by
  have sides : FailsOnly OfRules (sidesOf s.environment) := by
    unfold sidesOf
    split
    · exact .ok _
    · exact .error trivial
  refine sides.bind fun parts _ => (t.ofRules_referenced _).bind fun paired _ => ?_
  obtain ⟨before, after⟩ := parts
  refine .ite (fun _ => (t.ofRules_expand _).bind fun target _ => ?_) fun _ =>
    (t.ofRules_referenced _).bind fun keys _ => .ite (fun _ => .error trivial) fun _ =>
      .mapM fun index _ => ?_
  · split
    · exact (ofRules_substitutionFor t s limits _ _ _ _).bind fun _ _ => .ok _
    · exact .error trivial
  · exact (t.ofRules_resolve _ _ _).bind fun _ _ => (t.ofRules_resolve _ _ _).bind fun _ _ =>
      ofRules_substitutionFor t s limits _ _ _ _

end SoundChange

theorem Language.ofRules_pipelines (l : Language) (limits : Limits) :
    FailsOnly OfRules (l.pipelines limits) := by
  have plain (rules : List Replace) : FailsOnly OfRules (compileRules limits rules) := by
    induction rules with
    | nil => exact .ok _
    | cons r rules ih =>
      exact (Substitution.ofRules_ofTexts _ _ _ limits).bind fun _ _ => ih.bind fun _ _ => .ok _
  have sound (rules : List SoundChange) :
      FailsOnly OfRules (SoundChanges.compileRules l.soundChanges.categories limits rules) := by
    induction rules with
    | nil => exact .ok _
    | cons s rules ih =>
      exact (SoundChange.ofRules_compile _ s limits).bind fun _ _ => ih.bind fun _ _ => .ok _
  exact (plain _).bind fun _ _ => (plain _).bind fun _ _ => (sound _).bind fun _ _ => .ok _

/-! ## Running -/

theorem Pipeline.ofRules_run (ps : Pipeline) (d : Datum) : FailsOnly OfRules (ps.run d) := by
  cases d with
  | text s => exact fun e he => (run_text_failed he).ofRules
  | _ => exact .ite (fun _ => .ok _) fun _ => .error trivial

namespace Descent

variable (language ancestor : Language) (l a : Int) (ps : Pipelines) (transactional : Bool)

theorem ofRules_descendant (source : Word) (c : Coordinate) :
    FailsOnly OfRules (descendant source c ps) :=
  (Pipeline.ofRules_run _ _).bind fun _ _ =>
    FailsOnly.bind (.map (Pipeline.ofRules_run _ _)) fun _ _ => .map (Pipeline.ofRules_run _ _)

/-- Once it has begun, a derivation fails at a ghost or in its rules. -/
theorem notSelf_derive : FailsOnly NotSelf (derive language ancestor l a ps transactional).2 := by
  cases hr : refresh a ps language.vocab.items ancestor.vocab.cells with
  | mk fuses result =>
    cases result with
    | error e =>
      rw [derive_eq_error_of_refresh hr]
      obtain ⟨i, -, ⟨-, rfl⟩ | ⟨r, origin, c, -, he⟩⟩ := ghost_of_refresh hr
      · exact .error trivial
      · exact .error (ofRules_descendant ps origin c e he).notSelf
    | ok left =>
      cases hi : inherit a ps 0 left with
      | error e =>
        rw [derive_eq_error_of_inherit hr hi]
        obtain ⟨r, origin, -, he⟩ := inherit_failed hi
        exact .error (ofRules_descendant ps origin _ e he).notSelf
      | ok fresh =>
        rw [derive_eq_ok hr hi]
        exact .ok _

end Descent

/-! ## Projects -/

theorem notSelf_locate (index : Datum) (length : Nat) :
    FailsOnly NotSelf (locate index length) := by
  unfold locate
  split
  · exact .ite (fun _ => .ok _) fun _ => .error trivial
  · exact .ite (fun _ => .error trivial) fun _ => .error trivial
  · exact .error trivial

namespace Project

variable {p : Project} {c : Config} {lang ancestor n : Int}

theorem notSelf_language (p : Project) (lang : Int) : FailsOnly NotSelf (p.language lang) := by
  refine (notSelf_locate _ _).bind fun i _ => ?_
  split
  · exact .ok _
  · exact .error trivial

/-- A derivation is refused as one from the language itself exactly if it is. -/
theorem derive_eq_selfAncestor_iff :
    (p.derive c lang ancestor).2 = .error (.selfAncestor n) ↔ lang = ancestor ∧ n = lang := by
  constructor
  · intro h
    by_cases same : lang = ancestor
    · rw [derive, derivation, if_pos same] at h
      cases h
      exact ⟨same, rfl⟩
    · -- past the comparison of the indices, nothing fails with this error any more
      have later : FailsOnly NotSelf (p.derivation c lang ancestor) := by
        rw [derivation, if_neg same]
        exact (notSelf_locate _ _).bind fun _ _ => (notSelf_locate _ _).bind fun _ _ =>
          (notSelf_language p _).bind fun _ _ => (notSelf_language p _).bind fun _ _ =>
            ((Language.ofRules_pipelines _ _).mono fun _ => OfRules.notSelf).bind fun _ _ => .ok _
      rw [derive] at h
      split at h
      · rename_i e hd
        cases h
        exact (later _ hd).elim
      · exact (Descent.notSelf_derive _ _ _ _ _ _ _ h).elim
  · rintro ⟨rfl, rfl⟩
    rw [derive, derivation, if_pos rfl]

end Project
end Neogrammar
