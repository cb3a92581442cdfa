import Neogrammar.Proofs.Mutation
import Neogrammar.Proofs.Project.Derivation

/-!
# Operations in place

The operations of a project as an editor carries them out, each look and each write at its place.
All of them settle.
-/
namespace Neogrammar

open Mutation

/-! ## Categories and sound changes -/

namespace Categories

def addInPlace (key content : Datum) : Mutation Categories Unit := do
  let some size := key.size? | throw .wrongKind
  if size ≠ 1 then throw (.categoryKey key)
  let some graphemes := content.elements? | throw .wrongKind
  if graphemes.isEmpty || graphemes.any (!·.truthy) then throw (.categoryContent key)
  let some c := keyOf? key | throw .wrongKind
  modify fun t => ⟨putEntry c graphemes t.entries⟩

def removeInPlace (key : Datum) : Mutation Categories (List Datum) := do
  if !key.isKey then throw .wrongKind
  let some c := keyOf? key | throw (.unknownCategory key)
  let some graphemes := (← getThe Categories).find? c | throw (.unknownCategory key)
  modify fun t => ⟨t.entries.filter fun e => e.1 != c⟩
  return graphemes

theorem settles_add (key content : Datum) :
    (addInPlace key content).Settles (silent (·.add key content)) := by
  intro t
  unfold addInPlace silent add
  cases key.size? with
  | none => rfl
  | some size =>
    by_cases one : size ≠ 1
    · simp only [if_pos one]
      rfl
    · simp only [if_neg one]
      cases content.elements? with
      | none => rfl
      | some graphemes =>
        dsimp only
        split
        · rfl
        · cases keyOf? key <;> rfl

theorem settles_remove (key : Datum) : (removeInPlace key).Settles (·.remove key) := by
  intro t
  unfold removeInPlace remove
  cases key.isKey with
  | false => rfl
  | true =>
    cases keyOf? key with
    | none => rfl
    | some c =>
      cases hf : t.find? c with
      | none => simp [after_bind, settle, hf]
      | some graphemes => simp [after_bind, settle, hf, Except.map]

end Categories

namespace SoundChanges

variable {α : Type}

def onCategories (m : Mutation Categories α) : Mutation SoundChanges α :=
  within (·.categories) (fun c categories => { c with categories }) m

def onRules (m : Mutation (List SoundChange) α) : Mutation SoundChanges α :=
  within (·.rules) (fun c rules => { c with rules }) m

def addRuleInPlace (s : SoundChange) : Mutation SoundChanges Nat := do
  let _ ← look (·.compile s .default)
  onRules (RuleList.appendInPlace s)

def alterRuleInPlace (index : Datum) (s : SoundChange) : Mutation SoundChanges SoundChange := do
  let _ ← look (·.compile s .default)
  onRules (RuleList.alterInPlace index s)

def insertRuleInPlace (index : Datum) (s : SoundChange) : Mutation SoundChanges Unit := do
  let _ ← look (·.compile s .default)
  onRules (RuleList.insertInPlace index s)

theorem settles_addCategory (key content : Datum) :
    (onCategories (Categories.addInPlace key content)).Settles
      (silent (·.addCategory key content)) := by
  refine (settles_within (Categories.settles_add key content) fun _ => rfl).congr fun c => ?_
  simp only [silent, addCategory, bind_assoc, pure_bind]

theorem settles_removeCategory (key : Datum) :
    (onCategories (Categories.removeInPlace key)).Settles (·.removeCategory key) :=
  settles_within (Categories.settles_remove key) fun _ => rfl

theorem settles_addRule (s : SoundChange) : (addRuleInPlace s).Settles (·.addRule s) :=
  settles_look fun _ => settles_within (RuleList.settles_append s) fun _ => rfl

theorem settles_alterRule (index : Datum) (s : SoundChange) :
    (alterRuleInPlace index s).Settles (·.alterRule index s) :=
  settles_look fun _ => settles_within (RuleList.settles_alter index s) fun _ => rfl

theorem settles_insertRule (index : Datum) (s : SoundChange) :
    (insertRuleInPlace index s).Settles (silent (·.insertRule index s)) := by
  refine (settles_look fun _ =>
    settles_within (RuleList.settles_insert index s) fun _ => rfl).congr fun c => ?_
  simp only [silent, insertRule, bind_assoc, pure_bind]

theorem settles_removeRule (index : Datum) :
    (onRules (RuleList.removeInPlace index)).Settles (·.removeRule index) :=
  settles_within (RuleList.settles_remove index) fun _ => rfl

end SoundChanges

/-! ## Languages -/

namespace Language

variable {α : Type}

def onRules (kind : RuleKind) (m : Mutation (List Replace) α) : Mutation Language α :=
  through (·.rules kind) (·.withRules kind) m

def onVocab (m : Mutation (Slots Word) α) : Mutation Language α :=
  within (·.vocab) (fun l vocab => { l with vocab }) m

def onSoundChanges (m : Mutation SoundChanges α) : Mutation Language α :=
  within (·.soundChanges) (fun l soundChanges => { l with soundChanges }) m

def addRuleInPlace (kind : RuleKind) (pattern replacement : Datum) : Mutation Language Nat := do
  let rule ← ofExcept (checkRule pattern replacement)
  onRules kind (RuleList.appendInPlace rule)

def alterRuleInPlace (kind : RuleKind) (index pattern replacement : Datum) :
    Mutation Language Replace := do
  let rule ← ofExcept (checkRule pattern replacement)
  onRules kind (RuleList.alterInPlace index rule)

def insertRuleInPlace (kind : RuleKind) (index pattern replacement : Datum) :
    Mutation Language Unit := do
  let rule ← ofExcept (checkRule pattern replacement)
  onRules kind (RuleList.insertInPlace index rule)

/-- The pipelines are compiled and the forms computed before the word is stored. -/
def addWordInPlace (limits : Limits) (word : Word) : Mutation Language Nat := do
  let ps ← look (·.pipelines limits)
  let w ← ofExcept (word.morph ps.toSurface ps.toPhonetic)
  onVocab (Slots.appendInPlace w)

def alterWordInPlace (limits : Limits) (index : Datum) (change : WordChange) :
    Mutation Language Word := do
  let old ← look (·.vocab.get index)
  let ps ← look (·.pipelines limits)
  let w ← ofExcept ((change.apply old).morph ps.toSurface ps.toPhonetic)
  onVocab (Slots.setInPlace index (some w))
  return w

theorem withRules_self {l : Language} {kind : RuleKind} {rules : List Replace}
    (h : l.rules kind = .ok rules) : l.withRules kind rules = l := by
  cases kind <;> cases h <;> rfl

theorem settles_onRules {kind : RuleKind} {m : Mutation (List Replace) α}
    {f : List Replace → Except Error (α × List Replace)} (h : m.Settles f) :
    (onRules kind m).Settles fun l => l.rules kind >>= fun rules => f rules >>= fun result =>
      pure (result.1, l.withRules kind result.2) :=
  settles_through h fun _ _ => withRules_self

theorem settles_onSoundChanges {m : Mutation SoundChanges α}
    {f : SoundChanges → Except Error (α × SoundChanges)} (h : m.Settles f) :
    (onSoundChanges m).Settles fun l => f l.soundChanges >>= fun result =>
      pure (result.1, { l with soundChanges := result.2 }) :=
  settles_within h fun _ => rfl

theorem settles_addRule (kind : RuleKind) (pattern replacement : Datum) :
    (addRuleInPlace kind pattern replacement).Settles (·.addRule kind pattern replacement) :=
  settles_given fun rule => settles_onRules (RuleList.settles_append rule)

theorem settles_alterRule (kind : RuleKind) (index pattern replacement : Datum) :
    (alterRuleInPlace kind index pattern replacement).quiet.Settles
      (silent (·.alterRule kind index pattern replacement)) := by
  refine (settles_given fun rule => settles_onRules (RuleList.settles_alter index rule)).quiet.congr
    fun l => ?_
  simp only [silent, alterRule, bind_assoc, pure_bind]

theorem settles_insertRule (kind : RuleKind) (index pattern replacement : Datum) :
    (insertRuleInPlace kind index pattern replacement).Settles
      (silent (·.insertRule kind index pattern replacement)) := by
  refine (settles_given fun rule => settles_onRules (RuleList.settles_insert index rule)).congr
    fun l => ?_
  simp only [silent, insertRule, bind_assoc, pure_bind]

theorem settles_removeRule (kind : RuleKind) (index : Datum) :
    (onRules kind (RuleList.removeInPlace index)).quiet.Settles
      (silent (·.removeRule kind index)) := by
  refine (settles_onRules (RuleList.settles_remove index)).quiet.congr fun l => ?_
  simp only [silent, removeRule, bind_assoc, pure_bind]

end Language

/-! ## Projects -/

namespace Project

variable {α : Type}

def onLanguages (m : Mutation (Slots Language) α) : Mutation Project α :=
  within (·.languages) (fun p languages => { p with languages }) m

def onPartsOfSpeech (m : Mutation (Slots PartOfSpeech) α) : Mutation Project α :=
  within (·.partsOfSpeech) (fun p partsOfSpeech => { p with partsOfSpeech }) m

/-- Change the language at an index in place. -/
def onLanguage (lang : Int) (m : Mutation Language α) : Mutation Project α :=
  through (·.language lang) (·.withLanguage lang) m

theorem settles_onLanguage (lang : Int) {m : Mutation Language α}
    {f : Language → Except Error (α × Language)} (h : m.Settles f) :
    (onLanguage lang m).Settles (·.modifyLanguage lang f) :=
  settles_through h fun _ _ => withLanguage_self

theorem settles_updateLanguage (lang : Int) {m : Mutation Language Unit}
    {f : Language → Except Error Language} (h : m.Settles (silent f)) :
    (onLanguage lang m).Settles (silent (·.updateLanguage lang f)) := by
  refine (settles_onLanguage lang h).congr fun p => ?_
  simp only [silent, modifyLanguage, updateLanguage, bind_assoc, pure_bind]

theorem settles_renameLanguage (lang : Int) (name : Datum) :
    (onLanguage lang (modify fun l => { l with name })).Settles
      (silent (·.renameLanguage lang name)) :=
  settles_updateLanguage lang (settles_modify _)

theorem settles_removeLanguage (lang : Int) :
    (onLanguages (Slots.removeInPlace (.int lang))).quiet.Settles
      (silent (·.removeLanguage lang)) := by
  refine (settles_within (Slots.settles_remove (.int lang)) fun _ => rfl).quiet.congr fun p => ?_
  simp only [silent, removeLanguage, bind_assoc, pure_bind]

/-- The ancestor is looked up before it is set. -/
def setAncestorInPlace (lang : Int) (ancestor : Option Int) : Mutation Project Unit := do
  let _ ← look (·.language lang)
  if let some a := ancestor then
    if a = lang then throw (.selfAncestor lang)
    let _ ← look (·.language a)
  onLanguage lang (modify fun l => { l with ancestor })

theorem settles_setAncestor (lang : Int) (ancestor : Option Int) :
    (setAncestorInPlace lang ancestor).Settles (silent (·.setAncestor lang ancestor)) := by
  have written := settles_updateLanguage lang (f := fun l => .ok { l with ancestor })
    (settles_modify _)
  cases ancestor with
  | none =>
    refine (settles_look fun _ => written).congr fun p => ?_
    simp only [silent, setAncestor, updateLanguage]
    cases p.language lang <;> rfl
  | some a =>
    unfold setAncestorInPlace
    by_cases self : a = lang
    · simp only [if_pos self]
      refine (settles_look fun _ => settles_throw _).congr fun p => ?_
      simp only [silent, setAncestor, updateLanguage, if_pos self]
      cases p.language lang <;> rfl
    · simp only [if_neg self]
      refine (settles_look fun _ => settles_look fun _ => written).congr fun p => ?_
      simp only [silent, setAncestor, updateLanguage, if_neg self]
      cases p.language lang with
      | error e => rfl
      | ok l => cases p.language a <;> rfl

theorem settles_addPos (name abbr : Datum) :
    (onPartsOfSpeech (Slots.appendInPlace ⟨name, abbr⟩)).Settles
      fun p => .ok (p.addPos name abbr) :=
  settles_within (Slots.settles_append _) fun _ => rfl

theorem settles_alterPos (index name abbr : Datum) :
    (onPartsOfSpeech (Slots.setInPlace index (some ⟨name, abbr⟩))).Settles
      (silent (·.alterPos index name abbr)) := by
  refine (settles_within (Slots.settles_set index _) fun _ => rfl).congr fun p => ?_
  simp only [silent, alterPos, bind_assoc, pure_bind]

theorem settles_removePos (index : Datum) :
    (onPartsOfSpeech (Slots.removeInPlace index)).quiet.Settles (silent (·.removePos index)) := by
  refine (settles_within (Slots.settles_remove index) fun _ => rfl).quiet.congr fun p => ?_
  simp only [silent, removePos, bind_assoc, pure_bind]

theorem settles_addWord (c : Config) (lang : Int) (word : Word) :
    (onLanguage lang (Language.addWordInPlace c.limits word)).Settles (·.addWord c lang word) :=
  settles_onLanguage lang <| settles_look fun _ => settles_given fun w =>
    settles_within (Slots.settles_append w) fun _ => rfl

theorem settles_alterWord (c : Config) (lang : Int) (index : Datum) (change : WordChange) :
    (onLanguage lang (Language.alterWordInPlace c.limits index change)).Settles
      (·.alterWord c lang index change) := by
  refine settles_onLanguage lang (Settles.congr (settles_look fun old => settles_look fun ps =>
    settles_given fun w => (settles_within (Slots.settles_set index (some w)) fun _ => rfl).report
      fun _ => w) fun l => ?_)
  simp only [silent, bind_assoc, pure_bind]

theorem settles_removeWord (lang : Int) (index : Datum) :
    (onLanguage lang (Language.onVocab (Slots.removeInPlace index)).quiet).Settles
      (silent (·.removeWord lang index)) := by
  refine settles_updateLanguage lang
    ((settles_within (Slots.settles_remove index) fun _ => rfl).quiet.congr fun l => ?_)
  simp only [silent, bind_assoc, pure_bind]

/-! ## Rules, categories and sound changes -/

/-- A change of the sound changes of a language. -/
theorem settles_soundChanges (lang : Int) {m : Mutation SoundChanges α}
    {f : SoundChanges → Except Error (α × SoundChanges)} (h : m.Settles f) :
    (onLanguage lang (Language.onSoundChanges m)).quiet.Settles (silent (·.updateLanguage lang
      fun l => do
        let (_, soundChanges) ← f l.soundChanges
        pure { l with soundChanges })) := by
  refine (settles_onLanguage lang (Language.settles_onSoundChanges h)).quiet.congr fun p => ?_
  simp only [silent, modifyLanguage, updateLanguage, bind_assoc, pure_bind]

/-! ## Derivation -/

/-- Store what a derivation computed: the ancestor, the words fused and the fresh ones. The result
are the indices of the latter. -/
def mergeInPlace (ancestor : Int) (fuses : List (Nat × Word)) (fresh : List Word) :
    Mutation Language (List Nat) := do
  modify fun l => { l with ancestor := some ancestor }
  Language.onVocab do
    forM fuses fun f =>
      modify fun vocab => vocab.put f.1 ((vocab.find? f.1).map fun w => w.fuse f.2)
    fresh.mapM Slots.appendInPlace

/-- Derive with every word computed before the first one is stored. -/
def deriveStaged (c : Config) (lang ancestor : Int) : Mutation Project Descent.Report := do
  let (l, a, ps) ← look (·.derivation c lang ancestor)
  let (fuses, left) := Descent.refresh ancestor ps l.vocab.items a.vocab.cells
  let queue ← ofExcept left
  let fresh ← ofExcept (Descent.inherit ancestor ps 0 queue)
  let inherited ← onLanguage lang (mergeInPlace ancestor fuses fresh)
  return ⟨lang, ancestor, fuses.map (·.1), inherited⟩

theorem after_fuses (fuses : List (Nat × Word)) (vocab : Slots Word) :
    (forM fuses fun f =>
      modify fun vocab => vocab.put f.1 ((vocab.find? f.1).map fun w => w.fuse f.2) :
        Mutation (Slots Word) PUnit).after vocab = (Descent.fuseAll vocab fuses, .ok ()) := by
  induction fuses generalizing vocab with
  | nil => rfl
  | cons f fuses ih =>
    rw [List.forM_cons, after_bind, after_modify]
    exact ih _

theorem after_appends (fresh : List Word) (vocab : Slots Word) :
    (fresh.mapM Slots.appendInPlace).after vocab =
      (⟨vocab.cells ++ fresh.map some⟩, .ok (List.range' vocab.size fresh.length)) := by
  induction fresh generalizing vocab with
  | nil => simp
  | cons w fresh ih =>
    rw [List.mapM_cons, after_bind, Slots.settles_append w vocab]
    simp only [settle, after_bind, ih, Slots.size_push]
    simp [Slots.push, List.range']

theorem after_merge (ancestor : Int) (fuses : List (Nat × Word)) (fresh : List Word)
    (l : Language) :
    (mergeInPlace ancestor fuses fresh).after l =
      ({ l with
          ancestor := some ancestor
          vocab := ⟨(Descent.fuseAll l.vocab fuses).cells ++ fresh.map some⟩ },
        .ok (List.range' l.vocab.size fresh.length)) := by
  simp [mergeInPlace, Language.onVocab, after_bind, after_fuses, after_appends,
    Descent.size_fuseAll]

/-- Nothing is stored by a derivation that fails, and one that returns stores what it should. -/
theorem after_deriveStaged {c : Config} (hc : c.transactional = true) (lang ancestor : Int)
    (p : Project) : (deriveStaged c lang ancestor).after p = p.derive c lang ancestor := by
  unfold deriveStaged
  rw [after_bind, after_look]
  cases hd : p.derivation c lang ancestor with
  | error e => simp only [derive, hd]
  | ok found =>
    obtain ⟨l, a, ps⟩ := found
    obtain ⟨-, hl, -, -⟩ := derivation_eq_ok_iff.mp hd
    rw [derive_of_derivation hd]
    dsimp only
    rw [after_bind, after_ofExcept]
    cases hr : Descent.refresh ancestor ps l.vocab.items a.vocab.cells with
    | mk fuses left =>
      cases left with
      | error e =>
        simp only [Descent.derive_eq_error_of_refresh hr, hc, if_pos, withLanguage_self hl]
      | ok queue =>
        dsimp only
        rw [after_bind, after_ofExcept]
        cases hi : Descent.inherit ancestor ps 0 queue with
        | error e =>
          simp only [Descent.derive_eq_error_of_inherit hr hi, hc, if_pos, withLanguage_self hl]
        | ok fresh =>
          rw [Descent.derive_eq_ok hr hi]
          simp [onLanguage, hl, after_merge, Except.map]

end Project
end Neogrammar
