import Neogrammar.Proofs.Project.InSync

/-!
# Words that a failure leaves

Computing forms stops at the first failure. The words before it have both forms of the rules and
those after it both old forms. The word at which the run stops is torn where its surface form is
computed and its phonetic one is not.
-/
namespace Neogrammar

namespace Language

variable {l m : Language} {limits : Limits} {ps : Pipelines} {u v w : Word} {e : Error}

/-- A word keeps both its forms, or gets both from the rules of its language. -/
inductive Morphs (l : Language) (limits : Limits) (w v : Word) : Prop
  | kept (same : v = w)
  | formed (entered : v.authored = w.authored) (forms : l.Forms limits v)

/-- A word gets the surface form of its language beside its old phonetic form, since computing the
phonetic form fails. -/
structure Tears (l : Language) (limits : Limits) (e : Error) (w v : Word) : Prop where
  surface : formOf limits l.surfaceRules w.mnemonic = .ok v.surface
  phonetic : formOf limits l.phoneticRules w.mnemonic = .error e
  rest : v = { w with surface := v.surface }

/-! ### Words -/

section
variable (same : m.authored = l.authored)
include same

theorem rules_of_authored :
    m.surfaceRules = l.surfaceRules ∧ m.phoneticRules = l.phoneticRules := by
  have surface := congrArg surfaceRules same
  have phonetic := congrArg phoneticRules same
  exact ⟨surface, phonetic⟩

/-- Forms depend only on what is entered of a language. -/
theorem Forms.congr (h : l.Forms limits w) : m.Forms limits w := by
  obtain ⟨surface, phonetic⟩ := rules_of_authored same
  exact ⟨surface ▸ h.surface, phonetic ▸ h.phonetic⟩

theorem Morphs.congr (h : l.Morphs limits w v) : m.Morphs limits w v := by
  cases h with
  | kept unchanged => exact .kept unchanged
  | formed entered forms => exact .formed entered (forms.congr same)

theorem Tears.congr (h : l.Tears limits e w v) : m.Tears limits e w v := by
  obtain ⟨surface, phonetic⟩ := rules_of_authored same
  exact ⟨surface ▸ h.surface, phonetic ▸ h.phonetic, h.rest⟩

end

theorem Morphs.trans (first : l.Morphs limits w v) (second : l.Morphs limits v u) :
    l.Morphs limits w u := by
  cases second with
  | kept same => exact same ▸ first
  | formed entered forms =>
    refine .formed (entered.trans ?_) forms
    cases first with
    | kept same => rw [same]
    | formed entered' _ => exact entered'

/-- A word with the forms of the rules is not torn. -/
theorem Morphs.tears (first : l.Morphs limits w v) (tears : l.Tears limits e v u) :
    l.Tears limits e w u := by
  cases first with
  | kept same => exact same ▸ tears
  | formed entered forms =>
    have phonetic := forms.phonetic
    rw [tears.phonetic] at phonetic
    cases phonetic

/-- What computing the forms of a word in place comes to. -/
theorem morphed_cases (h : l.pipelines limits = .ok ps) (w : Word) :
    l.Morphs limits w (w.morphed ps.toSurface ps.toPhonetic).1 ∨
      ∃ e, (w.morphed ps.toSurface ps.toPhonetic).2 = .error e ∧
        l.Tears limits e w (w.morphed ps.toSurface ps.toPhonetic).1 := by
  obtain ⟨toSurface, toPhonetic, -⟩ := pipelines_eq_ok_iff.mp h
  have surface_eq : formOf limits l.surfaceRules w.mnemonic = ps.toSurface.run w.mnemonic := by
    rw [formOf, toSurface, ok_bind]
  have phonetic_eq : formOf limits l.phoneticRules w.mnemonic = ps.toPhonetic.run w.mnemonic := by
    rw [formOf, toPhonetic, ok_bind]
  cases surface : ps.toSurface.run w.mnemonic with
  | error e =>
    left
    rw [Word.morphed, Word.morphSurface, surface]
    exact .kept rfl
  | ok s =>
    rw [Word.morphed, Word.morphSurface, surface]
    cases phonetic : ps.toPhonetic.run w.mnemonic with
    | error e =>
      right
      simp only [Except.map, Word.morphPhonetic, phonetic]
      exact ⟨e, rfl, surface_eq.trans surface, phonetic_eq.trans phonetic, rfl⟩
    | ok t =>
      left
      simp only [Except.map, Word.morphPhonetic, phonetic]
      exact .formed rfl ⟨surface_eq.trans surface, phonetic_eq.trans phonetic⟩

/-! ### Vocabularies -/

/-- Of the words in some cells at most one is torn, and that one where the run stops. -/
theorem morphCells_cases (h : l.pipelines limits = .ok ps) (cells : List (Option Word)) :
    ∃ j₀ : Nat, ∀ (j : Nat) (v : Word), (morphCells ps cells).1[j]? = some (some v) →
      ∃ w, cells[j]? = some (some w) ∧ (l.Morphs limits w v ∨
        j = j₀ ∧ ∃ e, (morphCells ps cells).2 = .error e ∧ l.Tears limits e w v) := by
  induction cells with
  | nil => exact ⟨0, fun j v hv => by cases hv⟩
  | cons cell cells ih =>
    obtain ⟨j₀, ih⟩ := ih
    cases cell with
    | none =>
      refine ⟨j₀ + 1, fun j v hv => ?_⟩
      cases j with
      | zero => cases hv
      | succ j =>
        obtain ⟨w, hw, left⟩ := ih j v hv
        exact ⟨w, hw, left.imp_right fun ⟨at_, failed⟩ => ⟨congrArg (· + 1) at_, failed⟩⟩
    | some w =>
      have first := morphed_cases h w
      cases hw : w.morphed ps.toSurface ps.toPhonetic with
      | mk w' outcome =>
        rw [hw] at first
        cases outcome with
        | error e =>
          rw [morphCells_error hw]
          refine ⟨0, fun j v hv => ?_⟩
          cases j with
          | zero =>
            cases hv
            refine ⟨w, rfl, first.imp_right ?_⟩
            rintro ⟨e', ⟨⟩, torn⟩
            exact ⟨rfl, e, rfl, torn⟩
          | succ j => exact ⟨v, hv, .inl (.kept rfl)⟩
        | ok =>
          rw [morphCells_ok hw]
          refine ⟨j₀ + 1, fun j v hv => ?_⟩
          cases j with
          | zero =>
            cases hv
            refine ⟨w, rfl, .inl (first.resolve_right ?_)⟩
            rintro ⟨e, ⟨⟩, -⟩
          | succ j =>
            obtain ⟨u, hu, left⟩ := ih j v hv
            refine ⟨u, hu, left.imp_right fun ⟨at_, e, failed, torn⟩ => ?_⟩
            exact ⟨congrArg (· + 1) at_, e, map_eq_error_iff.mpr failed, torn⟩

end Language

namespace Project

variable {p q r : Project} {c : Config} {limits : Limits} {lang : Option Int} {e : Error}

/-- A live word of a project, with its language. -/
structure Lives (p : Project) (i j : Nat) (l : Language) (w : Word) : Prop where
  language : p.languages.find? i = some l
  word : l.vocab.find? j = some w

/-- Each live word of a project was there before and keeps both its forms or gets both from the
rules, but for one that may be torn by a failure. -/
def MorphsBut (limits : Limits) (place : Nat × Nat) (p : Project)
    (after : Project × Except Error Nat) : Prop :=
  ∀ i j m v, after.1.Lives i j m v → ∃ l w, p.Lives i j l w ∧ m.authored = l.authored ∧
    (m.Morphs limits w v ∨
      place = (i, j) ∧ ∃ e, after.2 = .error e ∧ m.Tears limits e w v)

theorem morphsBut_refl (place : Nat × Nat) (p : Project) (outcome : Except Error Nat) :
    p.MorphsBut limits place (p, outcome) :=
  fun _ _ m v live => ⟨m, v, live, rfl, .inl (.kept rfl)⟩

/-- Where nothing has failed yet, one more run may tear a word. -/
theorem MorphsBut.trans {place place' : Nat × Nat} {n : Nat} {after : Project × Except Error Nat}
    (first : p.MorphsBut limits place (q, .ok n)) (second : q.MorphsBut limits place' after) :
    p.MorphsBut limits place' after := by
  intro i j m v live
  obtain ⟨l', w', live', same', left'⟩ := second i j m v live
  obtain ⟨l, w, live, same, left⟩ := first i j l' w' live'
  have whole : l'.Morphs limits w w' := by
    refine left.resolve_right ?_
    rintro ⟨-, e, ⟨⟩, -⟩
  have whole := whole.congr same'
  refine ⟨l, w, live, same'.trans same, ?_⟩
  rcases left' with morphs | ⟨at_, e, failed, torn⟩
  · exact .inl (whole.trans morphs)
  · exact .inr ⟨at_, e, failed, whole.tears torn⟩

theorem morphLanguage_but (p : Project) (c : Config) (lang : Int) :
    ∃ place, p.MorphsBut c.limits place (p.morphLanguage c lang) := by
  cases hl : p.language lang with
  | error e =>
    rw [morphLanguage, hl]
    exact ⟨(0, 0), morphsBut_refl _ p _⟩
  | ok l =>
  cases hps : l.pipelines c.limits with
  | error e =>
    simp only [morphLanguage, hl, hps]
    exact ⟨(0, 0), morphsBut_refl _ p _⟩
  | ok ps =>
    rw [morphLanguage_of_pipelines hl hps]
    obtain ⟨j₀, cells⟩ := Language.morphCells_cases hps l.vocab.cells
    refine ⟨(lang.toNat, j₀), fun i j m v live => ?_⟩
    rcases Slots.find?_put_cases live.language with ⟨-, other⟩ | ⟨rfl, this⟩
    · exact ⟨m, v, ⟨other, live.word⟩, rfl, .inl (.kept rfl)⟩
    · cases this
      obtain ⟨w, hw, left⟩ := cells j v (Slots.find?_eq_some_iff.mp live.word)
      have same := l.authored_morphAll ps
      refine ⟨l, w, ⟨(language_eq_ok_iff.mp hl).2, Slots.find?_eq_some_iff.mpr hw⟩, same, ?_⟩
      rcases left with morphs | ⟨rfl, e, failed, torn⟩
      · exact .inl (morphs.congr same)
      · exact .inr ⟨rfl, e, failed, torn.congr same⟩

theorem morphLanguages_but (p : Project) (c : Config) (count : Nat) (langs : List Int) :
    ∃ place, p.MorphsBut c.limits place (morphLanguages c p count langs) := by
  induction langs generalizing p count with
  | nil => exact ⟨(0, 0), morphsBut_refl _ p _⟩
  | cons lang langs ih =>
    obtain ⟨place, first⟩ := p.morphLanguage_but c lang
    cases hm : p.morphLanguage c lang with
    | mk q outcome =>
      rw [hm] at first
      simp only [morphLanguages, hm]
      cases outcome with
      | error e => exact ⟨place, first⟩
      | ok n =>
        obtain ⟨place', second⟩ := ih q (count + n)
        exact ⟨place', first.trans second⟩

/-- Where computing forms fails, what is entered stays as it is, and each live word keeps both its
forms or has both that the rules of its language give; but for one word at most, whose phonetic form
is what could not be computed. -/
theorem morphAll_tears (h : p.morphAll c lang = (q, .error e)) :
    q.authored = p.authored ∧ ∃ place, ∀ i j m v, q.Lives i j m v →
      ∃ l w, p.Lives i j l w ∧
        (m.Morphs c.limits w v ∨ place = (i, j) ∧ m.Tears c.limits e w v) := by
  obtain ⟨langs, run⟩ : ∃ langs, morphLanguages c p 0 langs = (q, .error e) := by
    cases lang with
    | some lang => exact ⟨[lang], h⟩
    | none => exact ⟨p.indices, h⟩
  obtain ⟨place, but⟩ := p.morphLanguages_but c 0 langs
  rw [run] at but
  refine ⟨?_, place, fun i j m v live => ?_⟩
  · have kept := p.authored_morphLanguages c 0 langs
    rwa [run] at kept
  · obtain ⟨l, w, live, -, left⟩ := but i j m v live
    refine ⟨l, w, live, left.imp_right ?_⟩
    rintro ⟨at_, e', ⟨⟩, torn⟩
    exact ⟨at_, torn⟩

/-- A language with some words, whose surface forms are soon at rest and of whose phonetic forms the
ones with an *a* grow on and on. -/
def growing (words : List Word) : Project :=
  ⟨⟨[some ⟨"Ayi", none, ⟨words.map some⟩, [⟨"a", "b"⟩], [⟨"a", "aa"⟩], .empty⟩]⟩, .empty⟩

/-- Two passes for each rule. -/
def brief : Config := ⟨⟨2, 16, 256⟩, true, some 2⟩

/-- The words as they are entered, with forms of their own. -/
def growingWords : List Word :=
  [⟨"c", "", 0, "", [], "", ""⟩, ⟨"a", "", 0, "", [], "", ""⟩, ⟨"a", "", 0, "", [], "", ""⟩]

/-- The words as the run leaves them: the first has both forms of the rules, the second is torn and
the third as it was. -/
def growingLeft : List Word :=
  [⟨"c", "", 0, "", [], "c", "c"⟩, ⟨"a", "", 0, "", [], "b", ""⟩, ⟨"a", "", 0, "", [], "", ""⟩]

theorem growing_morphAll : (growing growingWords).morphAll brief none =
    (growing growingLeft, .error (.diverges "a" 2 none)) := by
  rfl

theorem morphAll_tears_growing :
    (growing growingLeft).authored = (growing growingWords).authored ∧
      ∃ place, ∀ i j m v, (growing growingLeft).Lives i j m v →
        ∃ l w, (growing growingWords).Lives i j l w ∧ (m.Morphs brief.limits w v ∨
          place = (i, j) ∧ m.Tears brief.limits (.diverges "a" 2 none) w v) :=
  morphAll_tears growing_morphAll

/-- The second word has the new surface form beside its old phonetic form: neither are its forms
those from before, nor those of the rules. -/
theorem growing_half_morphed :
    (growing growingWords).morphAll brief none =
        (growing growingLeft, .error (.diverges "a" 2 none)) ∧
      ∃ m v, (growing growingLeft).Lives 0 1 m v ∧ v.surface = .text "b" ∧ v.phonetic = .text "" ∧
        ∀ l w, (growing growingWords).Lives 0 1 l w → ¬m.Morphs brief.limits w v := by
  refine ⟨growing_morphAll, _, _, ⟨rfl, rfl⟩, rfl, rfl, ?_⟩
  rintro l w ⟨language, word⟩ morphs
  cases language
  cases word
  -- the surface form is not the old one, and there is no phonetic form of the rules
  cases morphs with
  | kept same => exact absurd (congrArg Word.surface same) (by simp)
  | formed entered forms => exact absurd forms.phonetic (by rintro ⟨⟩)

end Project
end Neogrammar
