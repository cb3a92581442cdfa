import Neogrammar.Proofs.Fixpoint
import Neogrammar.Proofs.Project.Derivation
import Neogrammar.Proofs.SoundChange.Limits

/-!
# Raised limits

Limits only stop runs. What a run returns it also returns under limits that allow more passes and
more growth, so every use of the rules that returns comes to the same under raised limits: the runs
of a pipeline, the forms of words, and whole derivations.
-/
namespace Neogrammar

/-- Limits are raised part by part. -/
instance : LE Limits where
  le l m := l.maxIterations ≤ m.maxIterations ∧ l.growthFactor ≤ m.growthFactor
    ∧ l.growthMargin ≤ m.growthMargin

theorem Limits.maxLength_mono {l m : Limits} (raised : l ≤ m) (n : Nat) :
    l.maxLength n ≤ m.maxLength n := by
  obtain ⟨-, factor, margin⟩ := raised
  have grown := Int.mul_le_mul_of_nonneg_left factor (Int.natCast_nonneg n)
  unfold maxLength
  omega

/-- The second computation returns what the first one does, if that returns. -/
def Below {α : Type} (x y : Except Error α) : Prop := ∀ a, x = .ok a → y = .ok a

/-- The second change in place comes to what the first one does, if that returns. -/
def Stands {σ α : Type} (x y : σ × Except Error α) : Prop := ∀ a, x.2 = .ok a → y = x

namespace Below

variable {α β : Type} {x y : Except Error α}

theorem refl (x : Except Error α) : Below x x := fun _ => id

theorem bind {f g : α → Except Error β} (h : Below x y) (next : ∀ a, Below (f a) (g a)) :
    Below (x >>= f) (y >>= g) := by
  intro b hb
  obtain ⟨a, ha, hb⟩ := bind_eq_ok_iff.mp hb
  exact bind_eq_ok_iff.mpr ⟨a, h a ha, next a b hb⟩

theorem map (h : Below x y) (f : α → β) : Below (x.map f) (y.map f) := by
  intro b hb
  obtain ⟨a, ha, same⟩ := map_eq_ok_iff.mp hb
  exact map_eq_ok_iff.mpr ⟨a, h a ha, same⟩

end Below

variable {limits other : Limits}

/-! ## Runs -/

/-- A run that comes to rest within its limits does so within raised ones. -/
theorem Substitution.below_apply (raised : limits ≤ other) (s : Substitution) (text : String) :
    Below ((s.within limits).apply text) ((s.within other).apply text) := by
  intro r h
  cases apply_eq_iff.mp h with
  | settled rests granted short =>
    -- the texts of a run do not depend on its limits
    refine apply_eq_iff.mpr (.settled rests (Int.lt_of_lt_of_le granted raised.1) ?_)
    exact fun j positive hj => Int.le_trans (short j positive hj) (Limits.maxLength_mono raised _)

namespace Pipeline

theorem below_runText (raised : limits ≤ other) (p : Pipeline) (text : String) :
    Below (runText (p.map (.within limits)) text) (runText (p.map (.within other)) text) := by
  induction p generalizing text with
  | nil => exact .refl _
  | cons s p ih => exact (s.below_apply raised text).bind ih

theorem below_run (raised : limits ≤ other) (p : Pipeline) (d : Datum) :
    Below (run (p.map (.within limits)) d) (run (p.map (.within other)) d) := by
  cases d
  case text s => exact (below_runText raised p s).map Datum.text
  all_goals
    simp only [run, List.isEmpty_map]
    exact .refl _

end Pipeline

/-- The pipelines of the second return what those of the first do. -/
structure Pipelines.Below (ps qs : Pipelines) : Prop where
  toSurface (d : Datum) : Neogrammar.Below (ps.toSurface.run d) (qs.toSurface.run d)
  toPhonetic (d : Datum) : Neogrammar.Below (ps.toPhonetic.run d) (qs.toPhonetic.run d)
  soundChange (d : Datum) : Neogrammar.Below (ps.soundChange.run d) (qs.soundChange.run d)

theorem Pipelines.below_within (raised : limits ≤ other) (ps : Pipelines) :
    (ps.within limits).Below (ps.within other) where
  toSurface := Pipeline.below_run raised ps.toSurface
  toPhonetic := Pipeline.below_run raised ps.toPhonetic
  soundChange := Pipeline.below_run raised ps.soundChange

/-- Rules that compile do so under raised limits, to pipelines that return what theirs do. -/
theorem Language.pipelines_raised (raised : limits ≤ other) {l : Language} {ps : Pipelines}
    (h : l.pipelines limits = .ok ps) : ∃ qs, l.pipelines other = .ok qs ∧ ps.Below qs := by
  have same : ps.within limits = ps := by
    have again := l.pipelines_within limits limits
    rw [h] at again
    exact (Except.ok.inj again).symm
  refine ⟨ps.within other, ?_, ?_⟩
  · rw [l.pipelines_within limits other, h]
    rfl
  · have below := ps.below_within raised
    rwa [same] at below

theorem Language.below_pipelines {α : Type} (raised : limits ≤ other) (l : Language)
    {f g : Pipelines → Except Error α}
    (next : ∀ ps qs, ps.Below qs → Neogrammar.Below (f ps) (g qs)) :
    Neogrammar.Below (l.pipelines limits >>= f) (l.pipelines other >>= g) := by
  intro a h
  obtain ⟨ps, hps, h⟩ := bind_eq_ok_iff.mp h
  obtain ⟨qs, hqs, below⟩ := l.pipelines_raised raised hps
  exact bind_eq_ok_iff.mpr ⟨qs, hqs, next ps qs below a h⟩

/-! ## Words -/

section
variable {ps qs : Pipelines} (below : ps.Below qs)
include below

namespace Word

theorem below_morph (w : Word) :
    Below (w.morph ps.toSurface ps.toPhonetic) (w.morph qs.toSurface qs.toPhonetic) :=
  ((below.toSurface w.mnemonic).map _).bind fun v => (below.toPhonetic v.mnemonic).map _

theorem stands_morphed (w : Word) :
    Stands (w.morphed ps.toSurface ps.toPhonetic) (w.morphed qs.toSurface qs.toPhonetic) := by
  intro a h
  have surface : Below (w.morphSurface ps.toSurface) (w.morphSurface qs.toSurface) :=
    (below.toSurface w.mnemonic).map _
  unfold morphed at h ⊢
  cases first : w.morphSurface ps.toSurface with
  | error e =>
    rw [first] at h
    cases h
  | ok v =>
    rw [first] at h
    have phonetic : Below (v.morphPhonetic ps.toPhonetic) (v.morphPhonetic qs.toPhonetic) :=
      (below.toPhonetic v.mnemonic).map _
    cases second : v.morphPhonetic ps.toPhonetic with
    | error e =>
      simp only [second] at h
      cases h
    | ok u => simp only [surface v first, phonetic u second, second]

end Word

namespace Language

theorem stands_morphCells (cells : List (Option Word)) :
    Stands (morphCells ps cells) (morphCells qs cells) := by
  induction cells with
  | nil => exact fun _ _ => rfl
  | cons cell cells ih =>
    intro n h
    cases cell with
    | none =>
      rw [morphCells] at h ⊢
      rw [morphCells, ih n h]
    | some w =>
      have word := w.stands_morphed below
      rw [morphCells] at h ⊢
      rw [morphCells]
      cases first : w.morphed ps.toSurface ps.toPhonetic with
      | mk v outcome =>
        rw [first] at h word
        cases outcome with
        | error e => cases h
        | ok _ =>
          obtain ⟨n, rest, -⟩ := map_eq_ok_iff.mp h
          rw [word _ rfl, ih n rest]

theorem stands_morphAll (l : Language) : Stands (l.morphAll ps) (l.morphAll qs) := by
  intro n h
  rw [morphAll, stands_morphCells below l.vocab.cells n h, morphAll]

end Language

namespace Descent

theorem below_descendant (w : Word) (c : Coordinate) :
    Below (descendant w c ps) (descendant w c qs) :=
  (below.soundChange w.mnemonic).bind fun _ => Word.below_morph below _

theorem stands_refresh (a : Int) (items : List (Nat × Word)) (queue : List (Option Word)) :
    Stands (refresh a ps items queue) (refresh a qs items queue) := by
  induction items generalizing queue with
  | nil => exact fun _ _ => rfl
  | cons item items ih =>
    obtain ⟨i, w⟩ := item
    intro left h
    cases claimed : coordinateInto? a w with
    | none =>
      rw [refresh_skip claimed] at h ⊢
      rw [refresh_skip claimed]
      exact ih queue left h
    | some c =>
      cases waits : waiting? queue c.word with
      | none =>
        rw [refresh_ghost claimed waits] at h
        cases h
      | some source =>
        cases derives : descendant source c ps with
        | error e =>
          rw [refresh_error claimed waits derives] at h
          cases h
        | ok derived =>
          rw [refresh_take claimed waits derives] at h ⊢
          rw [refresh_take claimed waits (below_descendant below source c derived derives),
            ih _ left h]

theorem below_inherit (a : Int) (i : Nat) (queue : List (Option Word)) :
    Below (inherit a ps i queue) (inherit a qs i queue) := by
  induction queue generalizing i with
  | nil => exact .refl _
  | cons cell queue ih =>
    cases cell with
    | none => exact ih (i + 1)
    | some w => exact (below_descendant below w _).bind fun _ => (ih (i + 1)).bind fun _ => .refl _

theorem stands_derive (l ancestor : Language) (i a : Int) (transactional : Bool) :
    Stands (derive l ancestor i a ps transactional) (derive l ancestor i a qs transactional) := by
  intro report h
  cases scan : refresh a ps l.vocab.items ancestor.vocab.cells with
  | mk fuses outcome =>
    have scan' := stands_refresh below a l.vocab.items ancestor.vocab.cells
    rw [scan] at scan'
    cases outcome with
    | error e =>
      rw [derive_eq_error_of_refresh scan] at h
      cases h
    | ok left =>
      cases rest : inherit a ps 0 left with
      | error e =>
        rw [derive_eq_error_of_inherit scan rest] at h
        cases h
      | ok fresh =>
        rw [derive_eq_ok scan rest,
          derive_eq_ok (scan' left rfl) (below_inherit below a 0 left fresh rest)]

end Descent

end

/-! ## Projects -/

/-- Settings under other limits. -/
def Config.within (limits : Limits) (c : Config) : Config := { c with limits }

namespace Project

theorem below_modifyLanguage {α : Type} (p : Project) (lang : Int)
    {f g : Language → Except Error (α × Language)} (h : ∀ l, Below (f l) (g l)) :
    Below (p.modifyLanguage lang f) (p.modifyLanguage lang g) :=
  (Below.refl _).bind fun l => (h l).bind fun _ => .refl _

section
variable {c : Config} (raised : c.limits ≤ limits) (p : Project)
include raised

theorem below_addWord (lang : Int) (word : Word) :
    Below (p.addWord c lang word) (p.addWord (c.within limits) lang word) :=
  p.below_modifyLanguage lang fun l => l.below_pipelines raised fun _ _ below =>
    (word.below_morph below).bind fun _ => .refl _

theorem below_alterWord (lang : Int) (index : Datum) (change : WordChange) :
    Below (p.alterWord c lang index change) (p.alterWord (c.within limits) lang index change) :=
  p.below_modifyLanguage lang fun l => (Below.refl _).bind fun old =>
    l.below_pipelines raised fun _ _ below =>
      ((change.apply old).below_morph below).bind fun _ => .refl _

theorem below_preview (lang : Int) (mnemonic : Datum) :
    Below (p.preview c lang mnemonic) (p.preview (c.within limits) lang mnemonic) := by
  unfold preview pipelines
  simp only [bind_assoc]
  exact (Below.refl _).bind fun l => l.below_pipelines raised fun _ _ below =>
    (below.toSurface mnemonic).bind fun _ => (below.toPhonetic mnemonic).bind fun _ =>
      (below.soundChange mnemonic).bind fun _ => .refl _

theorem stands_morphLanguage (lang : Int) :
    Stands (p.morphLanguage c lang) (p.morphLanguage (c.within limits) lang) := by
  intro n h
  unfold morphLanguage at h ⊢
  cases found : p.language lang with
  | error e => rfl
  | ok l =>
    cases compiled : l.pipelines c.limits with
    | error e =>
      simp only [found, compiled, reduceCtorEq] at h
    | ok ps =>
      obtain ⟨qs, compiled', below⟩ := l.pipelines_raised raised compiled
      simp only [found, compiled] at h
      simp only [Config.within, compiled', l.stands_morphAll below n h, compiled]

theorem stands_morphLanguages (count : Nat) (langs : List Int) :
    Stands (morphLanguages c p count langs) (morphLanguages (c.within limits) p count langs) := by
  induction langs generalizing p count with
  | nil => exact fun _ _ => rfl
  | cons lang langs ih =>
    intro n h
    have first := p.stands_morphLanguage raised lang
    rw [morphLanguages] at h ⊢
    rw [morphLanguages]
    cases done : p.morphLanguage c lang with
    | mk q outcome =>
      rw [done] at h first
      cases outcome with
      | error e => cases h
      | ok m =>
        rw [first m rfl]
        exact ih q (count + m) n h

theorem stands_derive (lang ancestor : Int) :
    Stands (p.derive c lang ancestor) (p.derive (c.within limits) lang ancestor) := by
  intro report h
  cases found : p.derivation c lang ancestor with
  | error e =>
    rw [derive, found] at h
    cases h
  | ok parts =>
    obtain ⟨l, a, ps⟩ := parts
    obtain ⟨apart, hl, ha, compiled⟩ := derivation_eq_ok_iff.mp found
    obtain ⟨qs, compiled', below⟩ := l.pipelines_raised raised compiled
    have found' : p.derivation (c.within limits) lang ancestor = .ok (l, a, qs) :=
      derivation_eq_ok_iff.mpr ⟨apart, hl, ha, compiled'⟩
    rw [derive_of_derivation found] at h
    have same := Descent.stands_derive below l a lang ancestor c.transactional report h
    rw [derive_of_derivation found', derive_of_derivation found]
    simp only [Config.within, same]

/-- Whatever uses the rules of a project and returns comes to the same under raised limits, with the
same result and the same project after it. -/
theorem within_raised_limits :
    (∀ lang word added, p.addWord c lang word = .ok added →
        p.addWord (c.within limits) lang word = .ok added)
      ∧ (∀ lang index change altered, p.alterWord c lang index change = .ok altered →
        p.alterWord (c.within limits) lang index change = .ok altered)
      ∧ (∀ lang count, (p.morphAll c lang).2 = .ok count →
        p.morphAll (c.within limits) lang = p.morphAll c lang)
      ∧ (∀ lang mnemonic shown, p.preview c lang mnemonic = .ok shown →
        p.preview (c.within limits) lang mnemonic = .ok shown)
      ∧ ∀ lang ancestor report, (p.derive c lang ancestor).2 = .ok report →
        p.derive (c.within limits) lang ancestor = p.derive c lang ancestor := by
  refine ⟨p.below_addWord raised, p.below_alterWord raised, fun lang => ?_,
    p.below_preview raised, p.stands_derive raised⟩
  cases lang with
  | none => exact p.stands_morphLanguages raised 0 _
  | some lang => exact p.stands_morphLanguages raised 0 _

end

/-- Settings that grant one pass that changes a text and one that leaves it alone. -/
def strict : Config := { Config.default with limits := ⟨2, 1, 0⟩ }

theorem within_raised_limits_isles :
    strict.limits ≤ .default
      ∧ ((isles 0).derive strict 1 0).2 = .ok ⟨1, 0, [0, 3], [4]⟩
      ∧ (isles 0).derive (strict.within .default) 1 0 = (isles 0).derive strict 1 0 := by
  have raised : strict.limits ≤ .default := ⟨by decide, by decide, by decide⟩
  have returns : ((isles 0).derive strict 1 0).2 = .ok ⟨1, 0, [0, 3], [4]⟩ := rfl
  exact ⟨raised, returns, (within_raised_limits raised (isles 0)).2.2.2.2 1 0 _ returns⟩

end Project
end Neogrammar
