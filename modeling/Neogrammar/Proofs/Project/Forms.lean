import Neogrammar.Proofs.Project.Kept

/-!
# Computed forms

The forms of a word are in sync with its language if they are what the plain rules of the language
give of its mnemonic. What is added, altered or derived gets such forms, and computing the forms of
words in sync changes nothing.
-/
namespace Neogrammar

namespace Language

variable {l : Language} {limits : Limits} {ps : Pipelines} {w v : Word}

/-- The form that plain rules give of a value. -/
def formOf (limits : Limits) (rules : List Replace) (d : Datum) : Except Error Datum := do
  let pipeline ← compileRules limits rules
  pipeline.run d

/-- The forms of a word are those that the plain rules of a language give of its mnemonic. Whether
the sound changes compile has no part in it. -/
structure Forms (l : Language) (limits : Limits) (w : Word) : Prop where
  surface : formOf limits l.surfaceRules w.mnemonic = .ok w.surface
  phonetic : formOf limits l.phoneticRules w.mnemonic = .ok w.phonetic

/-- All words have the forms that the rules give. -/
def InSync (l : Language) (limits : Limits) : Prop := l.vocab.All (l.Forms limits)

theorem inSync_named (name : Datum) : (named name).InSync limits := Slots.all_empty

/-- Forms depend on the plain rules only, which a change of words leaves alone. -/
theorem inSync_withWords {vocab : Slots Word} (h : vocab.All (l.Forms limits))
    (ancestor : Option Int) : ({ l with ancestor, vocab } : Language).InSync limits :=
  fun w hw => ⟨(h w hw).surface, (h w hw).phonetic⟩

theorem pipelines_eq_ok_iff :
    l.pipelines limits = .ok ps ↔ compileRules limits l.surfaceRules = .ok ps.toSurface ∧
      compileRules limits l.phoneticRules = .ok ps.toPhonetic ∧
      l.soundChanges.compileAll limits = .ok ps.soundChange := by
  obtain ⟨toSurface, toPhonetic, soundChange⟩ := ps
  simp only [pipelines, bind_eq_ok_iff, pure_eq_ok, Except.ok.injEq, Pipelines.mk.injEq]
  constructor
  · rintro ⟨_, hs, _, hp, _, hc, rfl, rfl, rfl⟩
    exact ⟨hs, hp, hc⟩
  · rintro ⟨hs, hp, hc⟩
    exact ⟨_, hs, _, hp, _, hc, rfl, rfl, rfl⟩

theorem forms_iff (h : l.pipelines limits = .ok ps) :
    l.Forms limits w ↔ ps.toSurface.run w.mnemonic = .ok w.surface ∧
      ps.toPhonetic.run w.mnemonic = .ok w.phonetic := by
  obtain ⟨hs, hp, -⟩ := pipelines_eq_ok_iff.mp h
  constructor
  · rintro ⟨surface, phonetic⟩
    rw [formOf, hs] at surface
    rw [formOf, hp] at phonetic
    exact ⟨surface, phonetic⟩
  · rintro ⟨surface, phonetic⟩
    exact ⟨by rw [formOf, hs]; exact surface, by rw [formOf, hp]; exact phonetic⟩

theorem forms_of_morph (h : l.pipelines limits = .ok ps)
    (hm : w.morph ps.toSurface ps.toPhonetic = .ok v) : l.Forms limits v := by
  obtain ⟨u, hu, hv⟩ := bind_eq_ok_iff.mp hm
  obtain ⟨surface, hs, rfl⟩ := map_eq_ok_iff.mp hu
  obtain ⟨phonetic, hp, rfl⟩ := map_eq_ok_iff.mp hv
  exact (forms_iff h).mpr ⟨hs, hp⟩

theorem forms_of_descendant {source : Word} {c : Coordinate} (h : l.pipelines limits = .ok ps)
    (hd : Descent.descendant source c ps = .ok w) : l.Forms limits w := by
  obtain ⟨mnemonic, -, hm⟩ := bind_eq_ok_iff.mp hd
  exact forms_of_morph h hm

/-- A fused word takes its mnemonic and both forms from the derived one. -/
theorem Forms.fuse (hv : l.Forms limits v) : l.Forms limits (w.fuse v) :=
  ⟨hv.surface, hv.phonetic⟩

/-- Computing forms that are in sync changes nothing. -/
theorem Forms.morphed (h : l.pipelines limits = .ok ps) (hw : l.Forms limits w) :
    w.morphed ps.toSurface ps.toPhonetic = (w, .ok ()) := by
  obtain ⟨hs, hp⟩ := (forms_iff h).mp hw
  have surface : w.morphSurface ps.toSurface = .ok w := by rw [Word.morphSurface, hs]; rfl
  have phonetic : w.morphPhonetic ps.toPhonetic = .ok w := by rw [Word.morphPhonetic, hp]; rfl
  simp only [Word.morphed, surface, phonetic]

/-- A derivation changes no more than the ancestor and the words, and keeps these in sync. -/
theorem derive_sync {ancestor : Language} {i a : Int} {transactional : Bool}
    (h : l.pipelines limits = .ok ps) :
    ∃ next vocab, (Descent.derive l ancestor i a ps transactional).1 =
      { l with ancestor := next, vocab } ∧ (l.InSync limits → vocab.All (l.Forms limits)) := by
  have any : ancestor.vocab.All fun _ => True := fun _ _ => trivial
  have own : l.vocab.All fun w => l.InSync limits → l.Forms limits w := fun w hw sync => sync w hw
  obtain ⟨next, vocab, derived, all⟩ := Descent.derive_all i a transactional
    (fun _ _ _ _ hd _ => forms_of_descendant h hd) (fun _ _ _ hv sync => (hv sync).fuse) own any
  exact ⟨next, vocab, derived, fun sync w hw => all w hw sync⟩

end Language
end Neogrammar
