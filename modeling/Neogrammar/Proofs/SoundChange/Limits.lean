import Neogrammar.Language
import Neogrammar.Proofs.Outcome

/-!
# Limits and compiled rules

Limits are for the runs of a substitution. Whether a rule compiles, and how it fails to, does not
depend on them; a compiled rule under other limits is the same substitutions with these limits.
-/
namespace Neogrammar

namespace Substitution

/-- A substitution under other limits. -/
def within (limits : Limits) (s : Substitution) : Substitution := { s with limits }

theorem ofTexts_within (pattern replacement rule : String) (limits other : Limits) :
    ofTexts pattern replacement rule other =
      within other <$> ofTexts pattern replacement rule limits := by
  unfold ofTexts
  cases Pattern.parse pattern.toList with
  | error refusal => rfl
  | ok compiled =>
    dsimp only
    cases readTemplate compiled replacement <;> rfl

end Substitution

namespace SoundChange

variable {t : Categories} {s : SoundChange}

theorem substitutionFor_within (before after : String) (target replacement : List Char)
    (limits other : Limits) :
    substitutionFor t s before after target replacement other =
      Substitution.within other <$> substitutionFor t s before after target replacement limits := by
  simp only [substitutionFor, map_bind]
  exact bind_congr fun _ => bind_congr fun _ => Substitution.ofTexts_within _ _ _ limits other

theorem compilePair_within (before after : String) (limits other : Limits) (index : Nat) :
    compilePair t s before after other index =
      Substitution.within other <$> compilePair t s before after limits index := by
  simp only [compilePair, map_bind]
  exact bind_congr fun _ => bind_congr fun _ => substitutionFor_within _ _ _ _ limits other

theorem compile_within (t : Categories) (s : SoundChange) (limits other : Limits) :
    s.compile t other = List.map (Substitution.within other) <$> s.compile t limits := by
  simp only [compile, map_bind]
  refine bind_congr fun sides => bind_congr fun paired => ?_
  split
  · simp only [map_bind]
    refine bind_congr fun target => ?_
    split
    · rw [substitutionFor_within _ _ _ _ limits other]
      simp
    · rfl
  · simp only [map_bind]
    refine bind_congr fun keys => ?_
    split
    · rfl
    · exact mapM_map_result (compilePair_within _ _ limits other) _

end SoundChange

namespace SoundChanges

variable {c : SoundChanges} {s : SoundChange}

/-- A sound change that compiles against the categories that there are. -/
def Accepts (c : SoundChanges) (s : SoundChange) : Prop := ∃ ps, c.compile s .default = .ok ps

instance (c : SoundChanges) (s : SoundChange) : Decidable (c.Accepts s) :=
  match h : c.compile s .default with
  | .ok ps => .isTrue ⟨ps, h⟩
  | .error e => .isFalse fun ⟨ps, hps⟩ => by
    rw [h] at hps
    cases hps

theorem Accepts.within (h : c.Accepts s) (limits : Limits) : ∃ ps, c.compile s limits = .ok ps := by
  obtain ⟨ps, hps⟩ := h
  have compiled := SoundChange.compile_within c.categories s .default limits
  rw [← compile, ← compile, hps] at compiled
  exact ⟨_, compiled⟩

theorem accepts_of_compile {limits : Limits} {ps : Pipeline} (h : c.compile s limits = .ok ps) :
    c.Accepts s := by
  have compiled := SoundChange.compile_within c.categories s limits .default
  rw [← compile, ← compile, h] at compiled
  exact ⟨_, compiled⟩

theorem compileRules_eq (t : Categories) (limits : Limits) (rules : List SoundChange) :
    compileRules t limits rules
      = (rules.mapM fun s : SoundChange => s.compile t limits).map List.flatten := by
  induction rules with
  | nil => rfl
  | cons s rules ih =>
    rw [compileRules, ih, List.mapM_cons]
    cases s.compile t limits with
    | error e => rfl
    | ok part => cases rules.mapM fun s : SoundChange => s.compile t limits <;> rfl

theorem compileRules_within (t : Categories) (limits other : Limits) (rules : List SoundChange) :
    compileRules t other rules =
      List.map (Substitution.within other) <$> compileRules t limits rules := by
  induction rules with
  | nil => rfl
  | cons s rules ih =>
    rw [compileRules, compileRules, SoundChange.compile_within t s limits other, ih]
    cases s.compile t limits with
    | error e => rfl
    | ok part =>
      cases compileRules t limits rules with
      | error e => rfl
      | ok more => exact congrArg Except.ok List.map_append.symm

/-- All sound changes compile together where each of them does. -/
theorem compileAll_returns_iff (c : SoundChanges) (limits : Limits) :
    (∃ ps, c.compileAll limits = .ok ps) ↔ ∀ s ∈ c.rules, c.Accepts s := by
  rw [compileAll, compileRules_eq]
  simp only [map_eq_ok_iff]
  constructor
  · rintro ⟨_, parts, each, -⟩ s hs
    obtain ⟨part, -, returns⟩ := mapM_mem each hs
    exact accepts_of_compile returns
  · intro accepts
    obtain ⟨parts, each, -⟩ := mapM_returns (P := fun _ _ => True) fun s hs => by
      obtain ⟨part, returns⟩ := (accepts s hs).within limits
      exact ⟨part, returns, trivial⟩
    exact ⟨_, parts, each, rfl⟩

end SoundChanges

/-! ## All rules of a language -/

/-- Pipelines under other limits. -/
def Pipelines.within (limits : Limits) (ps : Pipelines) : Pipelines where
  toSurface := ps.toSurface.map (.within limits)
  toPhonetic := ps.toPhonetic.map (.within limits)
  soundChange := ps.soundChange.map (.within limits)

namespace Language

theorem compileRules_within (limits other : Limits) (rules : List Replace) :
    compileRules other rules =
      List.map (Substitution.within other) <$> compileRules limits rules := by
  induction rules with
  | nil => rfl
  | cons r rules ih =>
    have first : r.compile other = Substitution.within other <$> r.compile limits :=
      Substitution.ofTexts_within _ _ _ limits other
    rw [compileRules, compileRules, first, ih]
    cases r.compile limits with
    | error e => rfl
    | ok one => cases compileRules limits rules <;> rfl

theorem pipelines_within (l : Language) (limits other : Limits) :
    l.pipelines other = Pipelines.within other <$> l.pipelines limits := by
  rw [pipelines, pipelines, compileRules_within limits other l.surfaceRules,
    compileRules_within limits other l.phoneticRules, SoundChanges.compileAll,
    SoundChanges.compileRules_within _ limits other, SoundChanges.compileAll]
  cases compileRules limits l.surfaceRules with
  | error e => rfl
  | ok toSurface =>
    cases compileRules limits l.phoneticRules with
    | error e => rfl
    | ok toPhonetic => cases SoundChanges.compileRules _ limits _ <;> rfl

end Language
end Neogrammar
