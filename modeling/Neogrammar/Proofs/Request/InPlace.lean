import Neogrammar.Proofs.Project.Calls
import Neogrammar.Proofs.Request.Runs

/-!
# Changes carried out in place

A change as an executor carries it out: fields and references are looked up, the project is changed
in place, and the report is put together from what is there then. It comes to what applying the
change says.
-/
namespace Neogrammar.Request

open Mutation Project

variable {α β : Type} {cfg : Config} {p : Project} {c : Change}

/-! ## What a change in place comes to -/

/-- The change leaves and reports what applying it by `f` does. -/
def Comes (m : Mutation Project Done) (f : Project → Except Error Outcome) : Prop :=
  ∀ p, m.after p = applied p (f p)

theorem comes_look {g : Project → Except Error β} {m : β → Mutation Project Done}
    {f : β → Project → Except Error Outcome} (h : ∀ b, Comes (m b) (f b)) :
    Comes (look g >>= m) fun p => g p >>= fun b => f b p := by
  intro p
  rw [after_bind, after_look]
  dsimp only
  cases g p with
  | error e => rfl
  | ok b => exact h b p

theorem comes_given {x : Except Error β} {m : β → Mutation Project Done}
    {f : β → Project → Except Error Outcome} (h : ∀ b, Comes (m b) (f b)) :
    Comes (ofExcept x >>= m) fun p => x >>= fun b => f b p := by
  intro p
  rw [after_bind, after_ofExcept]
  cases x with
  | error e => rfl
  | ok b => exact h b p

/-- A change that settles may be followed by a report that only looks, and may fail. -/
theorem comes_report {m : Mutation Project α} {f : Project → Except Error (α × Project)}
    {k : α → Mutation Project Done} (report : α → Project → Except Error Done) (h : m.Settles f)
    (looks : ∀ a q, (k a).after q = (q, report a q)) :
    Comes (m >>= k) fun p => f p >>= fun (a, q) => pure (q, report a q) := by
  intro p
  rw [after_bind, h p]
  dsimp only
  cases f p with
  | error e => rfl
  | ok result => exact looks result.1 result.2

theorem comes_silent {m : Mutation Project Unit} {f : Project → Except Error Project}
    {k : Mutation Project Done} {report : Except Error Done} (h : m.Settles (silent f))
    (looks : ∀ q, k.after q = (q, report)) :
    Comes (m >>= fun _ => k) fun p => f p >>= fun q => pure (q, report) := by
  intro p
  rw [comes_report (fun _ _ => report) h fun _ => looks]
  simp only [silent, bind_assoc, pure_bind]

/-! ## Changes -/

/-- Look up the language that a change is about. -/
def theLanguage (c : Change) : Mutation Project Int := look (needLanguage · c "language")

/-- A field that must be there. -/
def theField (c : Change) (name : String) : Mutation Project Datum := ofExcept (need c name)

/-- The operation on a list of plain rules that a change asks for. -/
def performRule (c : Change) (kind : RuleKind) : Action → Mutation Project Done
  | .add => do
    let lang ← theLanguage c
    let pattern ← theField c "pattern"
    let replacement ← theField c "replacement"
    let i ← onLanguage lang (Language.addRuleInPlace kind pattern replacement)
    return createdIn lang (ruleMessage kind .add (.nat i)) i
  | .alter => do
    let lang ← theLanguage c
    let index ← theField c "index"
    let pattern ← theField c "pattern"
    let replacement ← theField c "replacement"
    onLanguage lang (Language.alterRuleInPlace kind index pattern replacement).quiet
    return doneIn lang (ruleMessage kind .alter index)
  | .insert => do
    let lang ← theLanguage c
    let index ← theField c "index"
    let pattern ← theField c "pattern"
    let replacement ← theField c "replacement"
    onLanguage lang (Language.insertRuleInPlace kind index pattern replacement)
    return doneIn lang (ruleMessage kind .insert index)
  | .remove => do
    let lang ← theLanguage c
    let index ← theField c "index"
    onLanguage lang (Language.onRules kind (RuleList.removeInPlace index)).quiet
    return doneIn lang (ruleMessage kind .remove index)

/-- A change of the sound changes of a language in place. -/
def onSoundChanges (lang : Int) (m : Mutation SoundChanges α) : Mutation Project α :=
  onLanguage lang (Language.onSoundChanges m)

/-- A sound change of three values, put to use in place. -/
def withSoundChange (lang : Int) (target replacement environment : Datum)
    (m : SoundChange → Mutation SoundChanges α) : Mutation Project α :=
  onLanguage lang do
    let s ← ofExcept (soundChange target replacement environment)
    Language.onSoundChanges (m s)

/-- The operation on a list of sound changes that a change asks for. -/
def performSoundChange (c : Change) : Action → Mutation Project Done
  | .add => do
    let lang ← theLanguage c
    let target ← theField c "target"
    let replacement ← theField c "replacement"
    let environment ← theField c "environment"
    let i ← withSoundChange lang target replacement environment SoundChanges.addRuleInPlace
    return createdIn lang (ruleMessage .soundChange .add (.nat i)) i
  | .alter => do
    let lang ← theLanguage c
    let index ← theField c "index"
    let target ← theField c "target"
    let replacement ← theField c "replacement"
    let environment ← theField c "environment"
    (withSoundChange lang target replacement environment
      (SoundChanges.alterRuleInPlace index)).quiet
    return doneIn lang (ruleMessage .soundChange .alter index)
  | .insert => do
    let lang ← theLanguage c
    let index ← theField c "index"
    let target ← theField c "target"
    let replacement ← theField c "replacement"
    let environment ← theField c "environment"
    withSoundChange lang target replacement environment (SoundChanges.insertRuleInPlace index)
    return doneIn lang (ruleMessage .soundChange .insert index)
  | .remove => do
    let lang ← theLanguage c
    let index ← theField c "index"
    (onSoundChanges lang (SoundChanges.onRules (RuleList.removeInPlace index))).quiet
    return doneIn lang (ruleMessage .soundChange .remove index)

/-- Carry out a change in place. -/
def perform (cfg : Config) (c : Change) : Operation → Mutation Project Done
  | .addLanguage => do
    let name ← theField c "name"
    let i ← onLanguages (Slots.appendInPlace (.named name))
    ofExcept (addedLanguage name i)
  | .renameLanguage => do
    let lang ← theLanguage c
    let name ← theField c "name"
    onLanguage lang (modify fun l => { l with name })
    ofExcept (renamedLanguage lang name)
  | .removeLanguage => do
    let lang ← theLanguage c
    (onLanguages (Slots.removeInPlace (.int lang))).quiet
    return removedLanguage lang
  | .setAncestor => do
    let lang ← theLanguage c
    let ancestor ← look (ancestorOf · c)
    setAncestorInPlace lang ancestor
    return ancestorSet lang ancestor
  | .addPos => do
    let name ← theField c "name"
    let abbr ← theField c "abbr"
    let i ← onPartsOfSpeech (Slots.appendInPlace ⟨name, abbr⟩)
    ofExcept (addedPos abbr i)
  | .alterPos => do
    let index ← theField c "index"
    let name ← theField c "name"
    let abbr ← theField c "abbr"
    onPartsOfSpeech (Slots.setInPlace index (some ⟨name, abbr⟩))
    return alteredPos index
  | .removePos => do
    let index ← theField c "index"
    (onPartsOfSpeech (Slots.removeInPlace index)).quiet
    return removedPos index
  | .addWord => do
    let lang ← theLanguage c
    let word ← look (enteredWord · c)
    let i ← onLanguage lang (Language.addWordInPlace cfg.limits word)
    look (addedWord · lang i)
  | .alterWord => do
    let lang ← theLanguage c
    let change ← look (wordChangeOf · c)
    let index ← theField c "index"
    let w ← onLanguage lang (Language.alterWordInPlace cfg.limits index change)
    ofExcept (alteredWord lang index w)
  | .removeWord => do
    let lang ← theLanguage c
    let index ← theField c "index"
    onLanguage lang (Language.onVocab (Slots.removeInPlace index)).quiet
    return removedWord lang index
  | .rule .soundChange action => performSoundChange c action
  | .rule kind action => performRule c kind action
  | .addCategory => do
    let lang ← theLanguage c
    let key ← theField c "key"
    let content ← theField c "content"
    (onSoundChanges lang (SoundChanges.onCategories (Categories.addInPlace key content))).quiet
    return addedCategory lang key
  | .removeCategory => do
    let lang ← theLanguage c
    let key ← theField c "key"
    (onSoundChanges lang (SoundChanges.onCategories (Categories.removeInPlace key))).quiet
    return removedCategory lang key
  | .derive => do
    let lang ← theLanguage c
    let ancestor ← look (needLanguage · c "ancestor")
    let r ← deriveInMode cfg lang ancestor
    return doneIn lang (derivationMessage r)
  | .morph => do
    let lang ← look (morphLanguageOf · c)
    let count ← .mk fun p => (p.morphAll cfg lang).swap
    return recomputed lang count

theorem settles_withSoundChange (lang : Int) (target replacement environment : Datum)
    {m : SoundChange → Mutation SoundChanges α}
    {f : SoundChange → SoundChanges → Except Error (α × SoundChanges)}
    (h : ∀ s, (m s).Settles (f s)) :
    (withSoundChange lang target replacement environment m).Settles (·.modifyLanguage lang fun l => do
      let s ← soundChange target replacement environment
      let (a, soundChanges) ← f s l.soundChanges
      pure (a, { l with soundChanges })) :=
  settles_onLanguage lang (settles_given fun s => Language.settles_onSoundChanges (h s))

/-! ## One lemma per operation -/

section

variable {kind : RuleKind}

theorem comes_addRule (plain : kind ≠ .soundChange) :
    Comes (performRule c kind .add) (addRule · c kind) := by
  cases kind
  case soundChange => exact absurd rfl plain
  all_goals
    exact comes_look fun lang => comes_given fun pattern => comes_given fun replacement =>
      comes_report (fun i _ => .ok (createdIn lang (ruleMessage _ .add (.nat i)) i))
        (settles_onLanguage lang (Language.settles_addRule _ pattern replacement)) fun _ _ => rfl

theorem comes_alterRule (plain : kind ≠ .soundChange) :
    Comes (performRule c kind .alter) (alterRule · c kind) := by
  cases kind
  case soundChange => exact absurd rfl plain
  all_goals
    exact comes_look fun lang => comes_given fun index => comes_given fun pattern =>
      comes_given fun replacement => comes_silent (settles_updateLanguage lang
        (Language.settles_alterRule _ index pattern replacement)) fun _ => rfl

theorem comes_insertRule (plain : kind ≠ .soundChange) :
    Comes (performRule c kind .insert) (insertRule · c kind) := by
  cases kind
  case soundChange => exact absurd rfl plain
  all_goals
    exact comes_look fun lang => comes_given fun index => comes_given fun pattern =>
      comes_given fun replacement => comes_silent (settles_updateLanguage lang
        (Language.settles_insertRule _ index pattern replacement)) fun _ => rfl

theorem comes_removeRule (plain : kind ≠ .soundChange) :
    Comes (performRule c kind .remove) (removeRule · c kind) := by
  cases kind
  case soundChange => exact absurd rfl plain
  all_goals
    exact comes_look fun lang => comes_given fun index => comes_silent
      (settles_updateLanguage lang (Language.settles_removeRule _ index)) fun _ => rfl

end

theorem comes_addSoundChange :
    Comes (performSoundChange c .add) (addRule · c .soundChange) :=
  comes_look fun lang => comes_given fun target => comes_given fun replacement =>
    comes_given fun environment =>
      comes_report (fun i _ => .ok (createdIn lang (ruleMessage .soundChange .add (.nat i)) i))
        (settles_withSoundChange lang target replacement environment
          (f := fun s => (·.addRule s)) SoundChanges.settles_addRule)
        fun _ _ => rfl

theorem comes_alterSoundChange :
    Comes (performSoundChange c .alter) (alterRule · c .soundChange) := by
  refine comes_look fun lang => comes_given fun index => comes_given fun target =>
    comes_given fun replacement => comes_given fun environment => comes_silent
      ((settles_withSoundChange lang target replacement environment
        (SoundChanges.settles_alterRule index)).quiet.congr fun p => ?_)
      fun _ => rfl
  simp only [silent, alterSoundChange, modifyLanguage, updateLanguage, bind_assoc, pure_bind]

theorem comes_insertSoundChange :
    Comes (performSoundChange c .insert) (insertRule · c .soundChange) := by
  refine comes_look fun lang => comes_given fun index => comes_given fun target =>
    comes_given fun replacement => comes_given fun environment => comes_silent
      ((settles_withSoundChange lang target replacement environment
        (SoundChanges.settles_insertRule index)).congr fun p => ?_)
      fun _ => rfl
  simp only [silent, insertSoundChange, modifyLanguage, updateLanguage, bind_assoc, pure_bind]

theorem comes_removeSoundChange :
    Comes (performSoundChange c .remove) (removeRule · c .soundChange) :=
  comes_look fun lang => comes_given fun index => comes_silent
    (settles_soundChanges lang (SoundChanges.settles_removeRule index)) fun _ => rfl

theorem after_performRule {kind : RuleKind} (plain : kind ≠ .soundChange) (action : Action)
    (cfg : Config) (p : Project) :
    (performRule c kind action).after p = apply p cfg (.rule kind action) c := by
  cases action with
  | add => exact comes_addRule plain p
  | alter => exact comes_alterRule plain p
  | insert => exact comes_insertRule plain p
  | remove => exact comes_removeRule plain p

theorem after_performSoundChange (action : Action) (cfg : Config) (p : Project) :
    (performSoundChange c action).after p = apply p cfg (.rule .soundChange action) c := by
  cases action with
  | add => exact comes_addSoundChange p
  | alter => exact comes_alterSoundChange p
  | insert => exact comes_insertSoundChange p
  | remove => exact comes_removeSoundChange p

theorem comes_addLanguage : Comes (perform cfg c .addLanguage) (addLanguage · c) :=
  comes_given fun name => comes_report (fun i _ => addedLanguage name i)
    (settles_within (Slots.settles_append (Language.named name)) fun _ => rfl)
    fun _ _ => after_ofExcept _ _

theorem comes_renameLanguage : Comes (perform cfg c .renameLanguage) (renameLanguage · c) :=
  comes_look fun lang => comes_given fun name =>
    comes_silent (settles_renameLanguage lang name) fun _ => after_ofExcept _ _

theorem comes_removeLanguage : Comes (perform cfg c .removeLanguage) (removeLanguage · c) :=
  comes_look fun lang => comes_silent (settles_removeLanguage lang) fun _ => rfl

theorem comes_setAncestor : Comes (perform cfg c .setAncestor) (setAncestor · c) :=
  comes_look fun lang => comes_look fun ancestor =>
    comes_silent (settles_setAncestor lang ancestor) fun _ => rfl

theorem comes_addPos : Comes (perform cfg c .addPos) (addPos · c) :=
  comes_given fun name => comes_given fun abbr => comes_report (fun i _ => addedPos abbr i)
    (settles_addPos name abbr) fun _ _ => after_ofExcept _ _

theorem comes_alterPos : Comes (perform cfg c .alterPos) (alterPos · c) :=
  comes_given fun index => comes_given fun name => comes_given fun abbr =>
    comes_silent (settles_alterPos index name abbr) fun _ => rfl

theorem comes_removePos : Comes (perform cfg c .removePos) (removePos · c) :=
  comes_given fun index => comes_silent (settles_removePos index) fun _ => rfl

theorem comes_addWord : Comes (perform cfg c .addWord) (addWord · cfg c) :=
  comes_look fun lang => comes_look fun word => comes_report (fun i q => addedWord q lang i)
    (settles_addWord cfg lang word) fun _ _ => after_look _ _

theorem comes_alterWord : Comes (perform cfg c .alterWord) (alterWord · cfg c) :=
  comes_look fun lang => comes_look fun change => comes_given fun index =>
    comes_report (fun w _ => alteredWord lang index w) (settles_alterWord cfg lang index change)
      fun _ _ => after_ofExcept _ _

theorem comes_removeWord : Comes (perform cfg c .removeWord) (removeWord · c) :=
  comes_look fun lang => comes_given fun index =>
    comes_silent (settles_removeWord lang index) fun _ => rfl

theorem comes_addCategory : Comes (perform cfg c .addCategory) (addCategory · c) := by
  refine comes_look fun lang => comes_given fun key => comes_given fun content => comes_silent
    ((settles_soundChanges lang (SoundChanges.settles_addCategory key content)).congr
      fun p => ?_) fun _ => rfl
  simp only [silent, Project.addCategory, updateLanguage, bind_assoc, pure_bind]

theorem comes_removeCategory : Comes (perform cfg c .removeCategory) (removeCategory · c) :=
  comes_look fun lang => comes_given fun key => comes_silent
    (settles_soundChanges lang (SoundChanges.settles_removeCategory key)) fun _ => rfl

theorem after_perform_derive (cfg : Config) (c : Change) (p : Project) :
    (perform cfg c .derive).after p = derive p cfg c := by
  rw [perform, theLanguage, after_bind, after_look, derive, derivationOf]
  cases needLanguage p c "language" with
  | error e => rfl
  | ok lang =>
    dsimp only [ok_bind]
    rw [after_bind, after_look]
    cases needLanguage p c "ancestor" with
    | error e => rfl
    | ok ancestor =>
      dsimp only [ok_bind, pure_eq_ok]
      rw [after_bind, Call.after_deriveInMode]
      rcases p.derive cfg lang ancestor with ⟨q, _ | _⟩ <;> rfl

theorem after_perform_morph (cfg : Config) (c : Change) (p : Project) :
    (perform cfg c .morph).after p = morph p cfg c := by
  rw [perform, after_bind, after_look, morph]
  cases morphLanguageOf p c with
  | error e => rfl
  | ok lang =>
    have computed : Mutation.after (.mk fun p => (p.morphAll cfg lang).swap) p =
        p.morphAll cfg lang := rfl
    dsimp only
    rw [after_bind, computed]
    rcases p.morphAll cfg lang with ⟨q, _ | _⟩ <;> rfl

/-! ## Every operation -/

/-- Carried out in place, a change comes to what applying it says. -/
theorem after_perform (cfg : Config) (c : Change) (o : Operation) (p : Project) :
    (perform cfg c o).after p = apply p cfg o c := by
  cases o with
  | addLanguage => exact comes_addLanguage p
  | renameLanguage => exact comes_renameLanguage p
  | removeLanguage => exact comes_removeLanguage p
  | setAncestor => exact comes_setAncestor p
  | addPos => exact comes_addPos p
  | alterPos => exact comes_alterPos p
  | removePos => exact comes_removePos p
  | addWord => exact comes_addWord p
  | alterWord => exact comes_alterWord p
  | removeWord => exact comes_removeWord p
  | rule kind action =>
    cases kind with
    | soundChange => exact after_performSoundChange action cfg p
    | surface => exact after_performRule (by simp) action cfg p
    | phonetic => exact after_performRule (by simp) action cfg p
  | addCategory => exact comes_addCategory p
  | removeCategory => exact comes_removeCategory p
  | derive => exact after_perform_derive cfg c p
  | morph => exact after_perform_morph cfg c p

end Neogrammar.Request
