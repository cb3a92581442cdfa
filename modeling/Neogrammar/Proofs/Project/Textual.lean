import Neogrammar.Proofs.Project.Kept

/-!
# Projects of texts

What computing forms and deriving work on are the mnemonic forms, the sides of sound changes and the
graphemes. A project in which these are texts stays one under every operation that brings texts;
names, glosses and rules that do not compile have no part in it.
-/
namespace Neogrammar

/-- The graphemes are texts. -/
def Categories.Textual (t : Categories) : Prop := ∀ e ∈ t.entries, ∀ g ∈ e.2, g.isText = true

/-- Graphemes and sides are texts. -/
structure SoundChanges.Textual (c : SoundChanges) : Prop where
  graphemes : c.categories.Textual
  sides : ∀ s ∈ c.rules, s.Storable

def Word.HasTextMnemonic (w : Word) : Prop := w.mnemonic.isText = true

structure Language.Textual (l : Language) : Prop where
  mnemonics : l.vocab.All Word.HasTextMnemonic
  soundChanges : l.soundChanges.Textual

def Project.Textual (p : Project) : Prop := p.languages.All Language.Textual

/-- A project that plain data keep is one of texts if its graphemes are. -/
theorem Project.Storable.textual {p : Project} (hp : p.Storable fun g => g.isText = true) :
    p.Textual :=
  fun l hl =>
    have storable := hp.languages l hl
    ⟨fun w hw => (storable.vocab w hw).mnemonic,
      fun e he g hg => (storable.soundChanges.categories.graphemes e he g hg).2,
      storable.soundChanges.rules⟩

/-! ## Words -/

namespace Word

variable {w v : Word} {toSurface toPhonetic : Pipeline}

theorem mnemonic_morphSurface (h : w.morphSurface toSurface = .ok v) :
    v.mnemonic = w.mnemonic := by
  obtain ⟨surface, -, rfl⟩ := map_eq_ok_iff.mp h
  rfl

theorem mnemonic_morphPhonetic (h : w.morphPhonetic toPhonetic = .ok v) :
    v.mnemonic = w.mnemonic := by
  obtain ⟨phonetic, -, rfl⟩ := map_eq_ok_iff.mp h
  rfl

theorem mnemonic_morph (h : w.morph toSurface toPhonetic = .ok v) : v.mnemonic = w.mnemonic := by
  obtain ⟨u, hu, hv⟩ := bind_eq_ok_iff.mp h
  rw [mnemonic_morphPhonetic hv, mnemonic_morphSurface hu]

theorem mnemonic_morphed : (w.morphed toSurface toPhonetic).1.mnemonic = w.mnemonic := by
  unfold morphed
  cases hs : w.morphSurface toSurface with
  | error e => rfl
  | ok u =>
    cases hp : u.morphPhonetic toPhonetic with
    | error e => simpa only [hp] using mnemonic_morphSurface hs
    | ok v =>
      simp only [hp]
      rw [mnemonic_morphPhonetic hp, mnemonic_morphSurface hs]

theorem HasTextMnemonic.morph (hw : w.HasTextMnemonic) (h : w.morph toSurface toPhonetic = .ok v) :
    v.HasTextMnemonic :=
  (congrArg Datum.isText (mnemonic_morph h)).trans hw

theorem HasTextMnemonic.morphed (hw : w.HasTextMnemonic) :
    (w.morphed toSurface toPhonetic).1.HasTextMnemonic :=
  (congrArg Datum.isText mnemonic_morphed).trans hw

end Word

theorem WordChange.textMnemonic_apply {change : WordChange} {w : Word} (hw : w.HasTextMnemonic)
    (hc : ∀ d, change.mnemonic = some d → d.isText = true) : (change.apply w).HasTextMnemonic := by
  unfold Word.HasTextMnemonic apply Word.entered
  cases hm : change.mnemonic with
  | none => exact hw
  | some d => exact hc d hm

theorem Descent.textMnemonic_descendant {source w : Word} {c : Coordinate} {ps : Pipelines}
    (hs : source.HasTextMnemonic) (h : descendant source c ps = .ok w) : w.HasTextMnemonic := by
  obtain ⟨mnemonic, hm, h⟩ := bind_eq_ok_iff.mp h
  have entered : (Word.entered mnemonic source.gloss source.pos source.note [c]).HasTextMnemonic :=
    Pipeline.isText_of_run hm hs
  exact entered.morph h

/-! ## Sound changes -/

namespace SoundChanges

variable {c after : SoundChanges} {key content : Datum}

theorem textual_empty : empty.Textual :=
  ⟨by simp [empty, Categories.empty, Categories.Textual], by simp [empty]⟩

theorem Textual.addCategory (hc : c.Textual) (h : c.addCategory key content = .ok after)
    (texts : ∀ graphemes, content.elements? = some graphemes → ∀ g ∈ graphemes, g.isText = true) :
    after.Textual := by
  obtain ⟨t, ht, h⟩ := bind_eq_ok_iff.mp h
  cases h
  exact ⟨Categories.add_all ht hc.graphemes fun gs hgs g hg _ => texts gs hgs g hg, hc.sides⟩

theorem Textual.removeCategory {graphemes : List Datum} (hc : c.Textual)
    (h : c.removeCategory key = .ok (graphemes, after)) : after.Textual := by
  obtain ⟨⟨_, t⟩, ht, h⟩ := bind_eq_ok_iff.mp h
  cases h
  obtain ⟨sign, rfl⟩ := Categories.remove_eq_ok ht
  exact ⟨fun e he => hc.graphemes e (List.mem_of_mem_filter he), hc.sides⟩

theorem Textual.withRules (hc : c.Textual)
    (h : after.categories = c.categories ∧ ∀ r ∈ after.rules, r.Storable) : after.Textual :=
  ⟨h.1 ▸ hc.graphemes, h.2⟩

end SoundChanges

/-! ## Languages -/

namespace Language

variable {l m : Language} {kind : RuleKind}

theorem textual_named (name : Datum) : (named name).Textual :=
  ⟨Slots.all_empty, SoundChanges.textual_empty⟩

theorem Textual.withRules {rules : List Replace} (hl : l.Textual) :
    (l.withRules kind rules).Textual := by
  cases kind <;> exact ⟨hl.mnemonics, hl.soundChanges⟩

theorem Textual.morphAll {ps : Pipelines} (hl : l.Textual) : (l.morphAll ps).1.Textual :=
  { hl with mnemonics := morphCells_all (fun _ hw => hw.morphed) hl.mnemonics }

theorem Textual.derive {ancestor : Language} {i a : Int} {ps : Pipelines} {transactional : Bool}
    (hl : l.Textual) (ha : ancestor.Textual) :
    (Descent.derive l ancestor i a ps transactional).1.Textual := by
  obtain ⟨next, vocab, derived, all⟩ := Descent.derive_all i a transactional
    (fun _ _ _ => Descent.textMnemonic_descendant) (fun _ _ _ hv => hv) hl.mnemonics ha.mnemonics
  rw [derived]
  exact ⟨all, hl.soundChanges⟩

end Language

/-! ## Projects -/

namespace Project

variable {p q : Project} {c : Config} {lang : Int} {index name : Datum}

theorem Textual.language {l : Language} (hp : p.Textual) (h : p.language lang = .ok l) :
    l.Textual :=
  hp.of_get h

theorem Textual.addLanguage (hp : p.Textual) : (p.addLanguage name).2.Textual :=
  hp.push (Language.textual_named name)

theorem Textual.renameLanguage (hp : p.Textual) (h : p.renameLanguage lang name = .ok q) :
    q.Textual := by
  refine updateLanguage_all h hp ?_
  rintro l m hl ⟨⟩
  exact ⟨hl.mnemonics, hl.soundChanges⟩

theorem Textual.setAncestor {ancestor : Option Int} (hp : p.Textual)
    (h : p.setAncestor lang ancestor = .ok q) : q.Textual := by
  refine updateLanguage_all h hp fun l m hl hm => ?_
  split at hm
  · cases hm
    exact ⟨hl.mnemonics, hl.soundChanges⟩
  · split at hm
    · cases hm
    · obtain ⟨_, -, hm⟩ := bind_eq_ok_iff.mp hm
      cases hm
      exact ⟨hl.mnemonics, hl.soundChanges⟩

theorem Textual.removeLanguage (hp : p.Textual) (h : p.removeLanguage lang = .ok q) :
    q.Textual := by
  obtain ⟨⟨_, languages⟩, hr, h⟩ := bind_eq_ok_iff.mp h
  cases h
  exact hp.remove hr

theorem Textual.addWord {word : Word} {i : Nat} (hp : p.Textual) (hw : word.HasTextMnemonic)
    (h : p.addWord c lang word = .ok (i, q)) : q.Textual := by
  refine modifyLanguage_all h hp fun l i m hl hm => ?_
  obtain ⟨ps, -, hm⟩ := bind_eq_ok_iff.mp hm
  obtain ⟨w, hv, hm⟩ := bind_eq_ok_iff.mp hm
  cases hm
  exact ⟨hl.mnemonics.push (hw.morph hv), hl.soundChanges⟩

theorem Textual.alterWord {change : WordChange} {w : Word} (hp : p.Textual)
    (hc : ∀ d, change.mnemonic = some d → d.isText = true)
    (h : p.alterWord c lang index change = .ok (w, q)) : q.Textual := by
  refine modifyLanguage_all h hp fun l v m hl hm => ?_
  obtain ⟨old, ho, hm⟩ := bind_eq_ok_iff.mp hm
  obtain ⟨ps, -, hm⟩ := bind_eq_ok_iff.mp hm
  obtain ⟨new, hn, hm⟩ := bind_eq_ok_iff.mp hm
  obtain ⟨vocab, hv, hm⟩ := bind_eq_ok_iff.mp hm
  cases hm
  have changed : (change.apply old).HasTextMnemonic :=
    change.textMnemonic_apply (hl.mnemonics.of_get ho) hc
  exact ⟨hl.mnemonics.set (changed.morph hn) hv, hl.soundChanges⟩

theorem Textual.removeWord (hp : p.Textual) (h : p.removeWord lang index = .ok q) :
    q.Textual := by
  refine updateLanguage_all h hp fun l m hl hm => ?_
  obtain ⟨⟨_, vocab⟩, hv, hm⟩ := bind_eq_ok_iff.mp hm
  cases hm
  exact ⟨hl.mnemonics.remove hv, hl.soundChanges⟩

theorem Textual.morphLanguage (hp : p.Textual) : (p.morphLanguage c lang).1.Textual := by
  unfold Project.morphLanguage
  cases hl : p.language lang with
  | error e => exact hp
  | ok l =>
    dsimp only
    cases hps : l.pipelines c.limits with
    | error e => exact hp
    | ok ps => exact withLanguage_all hp (hp.language hl).morphAll

theorem Textual.morphAll {langs : Option Int} (hp : p.Textual) : (p.morphAll c langs).1.Textual :=
  morphAll_keeps (fun _ _ h => h.morphLanguage) langs hp

theorem Textual.derive {ancestor : Int} (hp : p.Textual) :
    (p.derive c lang ancestor).1.Textual := by
  unfold Project.derive
  cases hd : p.derivation c lang ancestor with
  | error e => exact hp
  | ok parts =>
    obtain ⟨l, a, ps⟩ := parts
    obtain ⟨-, hl, ha, -⟩ := derivation_eq_ok_iff.mp hd
    exact withLanguage_all hp ((hp.language hl).derive (hp.language ha))

section

variable {kind : RuleKind} {pattern replacement : Datum}

theorem Textual.addRule {i : Nat} (hp : p.Textual)
    (h : p.addRule lang kind pattern replacement = .ok (i, q)) : q.Textual := by
  refine modifyLanguage_all h hp fun l i m hl hm => ?_
  obtain ⟨rule, -, hm⟩ := bind_eq_ok_iff.mp hm
  obtain ⟨rules, -, hm⟩ := bind_eq_ok_iff.mp hm
  cases hm
  exact hl.withRules

theorem Textual.alterRule (hp : p.Textual)
    (h : p.alterRule lang kind index pattern replacement = .ok q) : q.Textual := by
  refine updateLanguage_all h hp fun l m hl hm => ?_
  obtain ⟨rule, -, hm⟩ := bind_eq_ok_iff.mp hm
  obtain ⟨rules, -, hm⟩ := bind_eq_ok_iff.mp hm
  obtain ⟨altered, -, hm⟩ := bind_eq_ok_iff.mp hm
  cases hm
  exact hl.withRules

theorem Textual.insertRule (hp : p.Textual)
    (h : p.insertRule lang kind index pattern replacement = .ok q) : q.Textual := by
  refine updateLanguage_all h hp fun l m hl hm => ?_
  obtain ⟨rule, -, hm⟩ := bind_eq_ok_iff.mp hm
  obtain ⟨rules, -, hm⟩ := bind_eq_ok_iff.mp hm
  obtain ⟨longer, -, hm⟩ := bind_eq_ok_iff.mp hm
  cases hm
  exact hl.withRules

theorem Textual.removeRule (hp : p.Textual) (h : p.removeRule lang kind index = .ok q) :
    q.Textual := by
  refine updateLanguage_all h hp fun l m hl hm => ?_
  obtain ⟨rules, -, hm⟩ := bind_eq_ok_iff.mp hm
  obtain ⟨shorter, -, hm⟩ := bind_eq_ok_iff.mp hm
  cases hm
  exact hl.withRules

end

section

variable {target replacement environment : Datum}

theorem Textual.addSoundChange {i : Nat} (hp : p.Textual) (ht : target.isText = true)
    (hr : replacement.isText = true)
    (h : p.addSoundChange lang target replacement environment = .ok (i, q)) : q.Textual := by
  refine modifyLanguage_all h hp fun l i m hl hm => ?_
  obtain ⟨s, hs, hm⟩ := bind_eq_ok_iff.mp hm
  obtain ⟨⟨_, changes⟩, hc, hm⟩ := bind_eq_ok_iff.mp hm
  cases hm
  have all := SoundChanges.addRule_all hc hl.soundChanges.sides (storable_soundChange ht hr hs)
  exact ⟨hl.mnemonics, hl.soundChanges.withRules all⟩

theorem Textual.alterSoundChange (hp : p.Textual) (ht : target.isText = true)
    (hr : replacement.isText = true)
    (h : p.alterSoundChange lang index target replacement environment = .ok q) : q.Textual := by
  refine updateLanguage_all h hp fun l m hl hm => ?_
  obtain ⟨s, hs, hm⟩ := bind_eq_ok_iff.mp hm
  obtain ⟨⟨_, changes⟩, hc, hm⟩ := bind_eq_ok_iff.mp hm
  cases hm
  have all := SoundChanges.alterRule_all hc hl.soundChanges.sides (storable_soundChange ht hr hs)
  exact ⟨hl.mnemonics, hl.soundChanges.withRules all⟩

theorem Textual.insertSoundChange (hp : p.Textual) (ht : target.isText = true)
    (hr : replacement.isText = true)
    (h : p.insertSoundChange lang index target replacement environment = .ok q) : q.Textual := by
  refine updateLanguage_all h hp fun l m hl hm => ?_
  obtain ⟨s, hs, hm⟩ := bind_eq_ok_iff.mp hm
  obtain ⟨changes, hc, hm⟩ := bind_eq_ok_iff.mp hm
  cases hm
  have all := SoundChanges.insertRule_all hc hl.soundChanges.sides (storable_soundChange ht hr hs)
  exact ⟨hl.mnemonics, hl.soundChanges.withRules all⟩

end

theorem Textual.removeSoundChange (hp : p.Textual) (h : p.removeSoundChange lang index = .ok q) :
    q.Textual := by
  refine updateLanguage_all h hp fun l m hl hm => ?_
  obtain ⟨⟨_, changes⟩, hc, hm⟩ := bind_eq_ok_iff.mp hm
  cases hm
  have all := SoundChanges.removeRule_all hc hl.soundChanges.sides
  exact ⟨hl.mnemonics, hl.soundChanges.withRules all⟩

theorem Textual.addCategory {key content : Datum} (hp : p.Textual)
    (h : p.addCategory lang key content = .ok q)
    (texts : ∀ graphemes, content.elements? = some graphemes → ∀ g ∈ graphemes, g.isText = true) :
    q.Textual := by
  refine updateLanguage_all h hp fun l m hl hm => ?_
  obtain ⟨changes, hc, hm⟩ := bind_eq_ok_iff.mp hm
  cases hm
  exact ⟨hl.mnemonics, hl.soundChanges.addCategory hc texts⟩

theorem Textual.removeCategory {key : Datum} (hp : p.Textual)
    (h : p.removeCategory lang key = .ok q) : q.Textual := by
  refine updateLanguage_all h hp fun l m hl hm => ?_
  obtain ⟨⟨_, changes⟩, hc, hm⟩ := bind_eq_ok_iff.mp hm
  cases hm
  exact ⟨hl.mnemonics, hl.soundChanges.removeCategory hc⟩

end Project
end Neogrammar
