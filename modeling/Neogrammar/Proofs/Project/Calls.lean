import Neogrammar.Project.Data
import Neogrammar.Proofs.Project.InPlace
import Neogrammar.Proofs.Project.Modes
import Neogrammar.Proofs.Text.Written

/-!
# Calls

A call is an operation of the editor with arguments of any kind. Carried out in place, each call
comes to what the operation of the project says. So with derivations in transactions, one that fails
leaves no trace, unless it adds a language whose name cannot be written.
-/
namespace Neogrammar

open Mutation

/-- An operation that changes a project, except the one that computes all forms anew. -/
inductive Call where
  | addLanguage (name : Datum)
  | renameLanguage (lang name : Datum)
  | setAncestor (lang ancestor : Datum)
  | removeLanguage (lang : Datum)
  | addPos (name abbr : Datum)
  | alterPos (index name abbr : Datum)
  | removePos (index : Datum)
  | addWord (lang mnemonic gloss : Datum) (pos : Int) (note : Datum) (ancestors : List Coordinate)
  | alterWord (lang index : Datum) (change : WordChange)
  | removeWord (lang index : Datum)
  | addRule (lang : Datum) (kind : RuleKind) (pattern replacement : Datum)
  | alterRule (lang : Datum) (kind : RuleKind) (index pattern replacement : Datum)
  | insertRule (lang : Datum) (kind : RuleKind) (index pattern replacement : Datum)
  | removeRule (lang : Datum) (kind : RuleKind) (index : Datum)
  | addCategory (lang key content : Datum)
  | removeCategory (lang key : Datum)
  | addSoundChange (lang target replacement environment : Datum)
  | alterSoundChange (lang index target replacement environment : Datum)
  | insertSoundChange (lang index target replacement environment : Datum)
  | removeSoundChange (lang index : Datum)
  | derive (lang ancestor : Datum)

namespace Project

/-- The whole number that a value is as the index of a language. One that is no whole number fails
like any index that addresses nothing. -/
def indexOf (p : Project) (d : Datum) : Except Error Int :=
  match d.quantity? with
  | some (.whole n) => .ok n
  | _ => (locate d p.languages.size).map Int.ofNat

/-- An ancestor, or none. -/
def ancestorOf (p : Project) (d : Datum) : Except Error (Option Int) :=
  if d.isNull then .ok none else (p.indexOf d).map some

/-- The two languages of a derivation. -/
def derivationOf (p : Project) (lang ancestor : Datum) : Except Error (Int × Int) := do
  let lang ← p.indexOf lang
  let ancestor ← p.indexOf ancestor
  pure (lang, ancestor)

/-- What an operation that is all or nothing leaves of a project. -/
def attempt (p : Project) : Except Error Project → Project × Except Error Unit
  | .ok q => (q, .ok ())
  | .error e => (p, .error e)

/-- Derive with every word computed before the first one is stored, or else with each word stored
when it is computed. -/
def deriveInMode (c : Config) (lang ancestor : Int) : Mutation Project Descent.Report :=
  if c.transactional then deriveStaged c lang ancestor
  else .mk fun p => (p.deriveInPlace c lang ancestor).swap

end Project

namespace Call

open Project

/-- What a call comes to: the project after it and its outcome. -/
def run (c : Config) (p : Project) : Call → Project × Except Error Unit
  -- the name is also logged, when the language is there
  | addLanguage name => ((p.addLanguage name).2, name.written.map fun _ => ())
  | renameLanguage lang name => p.attempt do p.renameLanguage (← p.indexOf lang) name
  | setAncestor lang ancestor =>
    p.attempt do p.setAncestor (← p.indexOf lang) (← p.ancestorOf ancestor)
  | removeLanguage lang => p.attempt do p.removeLanguage (← p.indexOf lang)
  | addPos name abbr => p.attempt (.ok (p.addPos name abbr).2)
  | alterPos index name abbr => p.attempt (p.alterPos index name abbr)
  | removePos index => p.attempt (p.removePos index)
  | addWord lang mnemonic gloss pos note ancestors => p.attempt do
    let (_, p) ← p.addWord c (← p.indexOf lang) (.entered mnemonic gloss pos note ancestors)
    pure p
  | alterWord lang index change => p.attempt do
    let (_, p) ← p.alterWord c (← p.indexOf lang) index change
    pure p
  | removeWord lang index => p.attempt do p.removeWord (← p.indexOf lang) index
  | addRule lang kind pattern replacement => p.attempt do
    let (_, p) ← p.addRule (← p.indexOf lang) kind pattern replacement
    pure p
  | alterRule lang kind index pattern replacement =>
    p.attempt do p.alterRule (← p.indexOf lang) kind index pattern replacement
  | insertRule lang kind index pattern replacement =>
    p.attempt do p.insertRule (← p.indexOf lang) kind index pattern replacement
  | removeRule lang kind index => p.attempt do p.removeRule (← p.indexOf lang) kind index
  | addCategory lang key content => p.attempt do p.addCategory (← p.indexOf lang) key content
  | removeCategory lang key => p.attempt do p.removeCategory (← p.indexOf lang) key
  | addSoundChange lang target replacement environment => p.attempt do
    let (_, p) ← p.addSoundChange (← p.indexOf lang) target replacement environment
    pure p
  | alterSoundChange lang index target replacement environment =>
    p.attempt do p.alterSoundChange (← p.indexOf lang) index target replacement environment
  | insertSoundChange lang index target replacement environment =>
    p.attempt do p.insertSoundChange (← p.indexOf lang) index target replacement environment
  | removeSoundChange lang index => p.attempt do p.removeSoundChange (← p.indexOf lang) index
  | derive lang ancestor =>
    match p.derivationOf lang ancestor with
    | .error e => (p, .error e)
    | .ok (lang, ancestor) =>
      let (p, outcome) := p.derive c lang ancestor
      (p, outcome.map fun _ => ())

/-- A call that is about a language. -/
def about (lang : Datum) (m : Int → Mutation Project Unit) : Mutation Project Unit := do
  m (← look (·.indexOf lang))

/-- A call that adds or changes a sound change. -/
def aboutSoundChanges {α : Type} (lang target replacement environment : Datum)
    (m : SoundChange → Mutation SoundChanges α) : Mutation Project Unit :=
  about lang fun n => (onLanguage n do
    let s ← ofExcept (soundChange target replacement environment)
    Language.onSoundChanges (m s)).quiet

/-- Carry out a call in place. -/
def perform (c : Config) : Call → Mutation Project Unit
  | addLanguage name => do
    let _ ← onLanguages (Slots.appendInPlace (.named name))
    let _ ← ofExcept name.written
  | renameLanguage lang name => about lang fun n => onLanguage n (modify fun l => { l with name })
  | setAncestor lang ancestor => about lang fun n => do
    setAncestorInPlace n (← look (·.ancestorOf ancestor))
  | removeLanguage lang => about lang fun n => (onLanguages (Slots.removeInPlace (.int n))).quiet
  | addPos name abbr => (onPartsOfSpeech (Slots.appendInPlace ⟨name, abbr⟩)).quiet
  | alterPos index name abbr => onPartsOfSpeech (Slots.setInPlace index (some ⟨name, abbr⟩))
  | removePos index => (onPartsOfSpeech (Slots.removeInPlace index)).quiet
  | addWord lang mnemonic gloss pos note ancestors => about lang fun n =>
    (onLanguage n (Language.addWordInPlace c.limits
      (.entered mnemonic gloss pos note ancestors))).quiet
  | alterWord lang index change => about lang fun n =>
    (onLanguage n (Language.alterWordInPlace c.limits index change)).quiet
  | removeWord lang index => about lang fun n =>
    onLanguage n (Language.onVocab (Slots.removeInPlace index)).quiet
  | addRule lang kind pattern replacement => about lang fun n =>
    (onLanguage n (Language.addRuleInPlace kind pattern replacement)).quiet
  | alterRule lang kind index pattern replacement => about lang fun n =>
    onLanguage n (Language.alterRuleInPlace kind index pattern replacement).quiet
  | insertRule lang kind index pattern replacement => about lang fun n =>
    onLanguage n (Language.insertRuleInPlace kind index pattern replacement)
  | removeRule lang kind index => about lang fun n =>
    onLanguage n (Language.onRules kind (RuleList.removeInPlace index)).quiet
  | addCategory lang key content => about lang fun n =>
    (onLanguage n (Language.onSoundChanges
      (SoundChanges.onCategories (Categories.addInPlace key content)))).quiet
  | removeCategory lang key => about lang fun n =>
    (onLanguage n (Language.onSoundChanges
      (SoundChanges.onCategories (Categories.removeInPlace key)))).quiet
  | addSoundChange lang target replacement environment =>
    aboutSoundChanges lang target replacement environment SoundChanges.addRuleInPlace
  | alterSoundChange lang index target replacement environment =>
    aboutSoundChanges lang target replacement environment (SoundChanges.alterRuleInPlace index)
  | insertSoundChange lang index target replacement environment =>
    aboutSoundChanges lang target replacement environment (SoundChanges.insertRuleInPlace index)
  | removeSoundChange lang index => about lang fun n =>
    (onLanguage n (Language.onSoundChanges
      (SoundChanges.onRules (RuleList.removeInPlace index)))).quiet
  | derive lang ancestor => about lang fun n => do
    let a ← look (·.indexOf ancestor)
    let _ ← deriveInMode c n a
    -- whether to warn is found out last
    let _ ← look (·.hasAncestryCycle n)

variable {c : Config} {p : Project} {lang ancestor : Datum}

theorem after_eq_attempt {m : Mutation Project Unit} {f : Project → Except Error Project}
    (h : m.Settles (silent f)) : m.after p = p.attempt (f p) := by
  rw [h p, silent]
  cases f p <;> rfl

theorem after_about {m : Int → Mutation Project Unit}
    {f : Int → Project → Except Error Project} (h : ∀ n, (m n).Settles (silent (f n))) :
    (about lang m).after p = p.attempt (do f (← p.indexOf lang) p) :=
  after_eq_attempt (settles_look_silent h)

theorem after_aboutSoundChanges {α : Type} {target replacement environment : Datum}
    {m : SoundChange → Mutation SoundChanges α}
    {f : SoundChange → SoundChanges → Except Error (α × SoundChanges)}
    (h : ∀ s, (m s).Settles (f s)) :
    (aboutSoundChanges lang target replacement environment m).after p =
      p.attempt (p.indexOf lang >>= fun n => p.updateLanguage n fun l => do
        let s ← soundChange target replacement environment
        let (_, soundChanges) ← f s l.soundChanges
        pure { l with soundChanges }) := by
  rw [aboutSoundChanges, after_about fun n => (settles_onLanguage n (settles_given fun s =>
    Language.settles_onSoundChanges (h s))).quiet]
  simp only [modifyLanguage, updateLanguage, bind_assoc, pure_bind]

/-- A derivation that returned has left a live language, so whether to warn can be found out. -/
theorem hasAncestryCycle_derived {n a : Int} {report : Descent.Report}
    (h : (p.derive c n a).2 = .ok report) :
    ∃ cycle, (p.derive c n a).1.hasAncestryCycle n = .ok cycle := by
  obtain ⟨l, source, ps, vocab, unclaimed, hd, hp, -⟩ := derive_returned h
  rw [hp, hasAncestryCycle, language_withLanguage_same (derivation_eq_ok_iff.mp hd).2.1]
  exact ⟨_, rfl⟩

theorem after_deriveInMode (c : Config) (n a : Int) (p : Project) :
    (deriveInMode c n a).after p = p.derive c n a := by
  unfold deriveInMode
  cases hc : c.transactional with
  | true => exact after_deriveStaged hc n a p
  | false =>
    have direct := derive_in_place p c n a
    rw [← hc] at direct
    exact direct.symm

/-- Carried out in place, a call comes to what the operation of the project says. -/
theorem after_perform (c : Config) (call : Call) (p : Project) :
    (call.perform c).after p = call.run c p := by
  cases call with
  | addLanguage name =>
    rw [perform, onLanguages, after_bind, after_within, Slots.settles_append, run]
    dsimp only [settle]
    rw [after_bind, after_ofExcept]
    cases name.written <;> rfl
  | renameLanguage lang name => exact after_about fun n => settles_renameLanguage n name
  | setAncestor lang ancestor =>
    exact after_about fun n => settles_look_silent fun a => settles_setAncestor n a
  | removeLanguage lang => exact after_about settles_removeLanguage
  | addPos name abbr => exact after_eq_attempt (settles_addPos name abbr).quiet
  | alterPos index name abbr => exact after_eq_attempt (settles_alterPos index name abbr)
  | removePos index => exact after_eq_attempt (settles_removePos index)
  | addWord lang mnemonic gloss pos note ancestors =>
    exact after_about fun n => (settles_addWord c n _).quiet
  | alterWord lang index change =>
    exact after_about fun n => (settles_alterWord c n index change).quiet
  | removeWord lang index => exact after_about fun n => settles_removeWord n index
  | addRule lang kind pattern replacement =>
    exact after_about fun n =>
      (settles_onLanguage n (Language.settles_addRule kind pattern replacement)).quiet
  | alterRule lang kind index pattern replacement =>
    exact after_about fun n =>
      settles_updateLanguage n (Language.settles_alterRule kind index pattern replacement)
  | insertRule lang kind index pattern replacement =>
    exact after_about fun n =>
      settles_updateLanguage n (Language.settles_insertRule kind index pattern replacement)
  | removeRule lang kind index =>
    exact after_about fun n => settles_updateLanguage n (Language.settles_removeRule kind index)
  | addCategory lang key content =>
    refine after_about (f := fun n p => p.addCategory n key content) fun n =>
      (settles_soundChanges n (SoundChanges.settles_addCategory key content)).congr fun p => ?_
    simp only [silent, Project.addCategory, updateLanguage, bind_assoc, pure_bind]
  | removeCategory lang key =>
    exact after_about fun n => settles_soundChanges n (SoundChanges.settles_removeCategory key)
  | addSoundChange lang target replacement environment =>
    rw [perform, after_aboutSoundChanges SoundChanges.settles_addRule, run]
    simp only [Project.addSoundChange, modifyLanguage, updateLanguage, bind_assoc, pure_bind]
  | alterSoundChange lang index target replacement environment =>
    rw [perform, after_aboutSoundChanges (SoundChanges.settles_alterRule index), run]
    simp only [Project.alterSoundChange]
  | insertSoundChange lang index target replacement environment =>
    rw [perform, after_aboutSoundChanges (SoundChanges.settles_insertRule index), run]
    simp only [silent, Project.insertSoundChange, updateLanguage, bind_assoc, pure_bind]
  | removeSoundChange lang index =>
    exact after_about fun n => settles_soundChanges n (SoundChanges.settles_removeRule index)
  | derive lang ancestor =>
    rw [perform, about, after_bind, after_look, run, derivationOf]
    cases p.indexOf lang with
    | error e => rfl
    | ok n =>
      dsimp only [ok_bind]
      rw [after_bind, after_look]
      cases p.indexOf ancestor with
      | error e => rfl
      | ok a =>
        dsimp only [ok_bind, pure_eq_ok]
        rw [after_bind, after_deriveInMode]
        cases hd : p.derive c n a with
        | mk q outcome =>
          cases outcome with
          | error e => rfl
          | ok report =>
            obtain ⟨cycle, hcycle⟩ := hasAncestryCycle_derived (p := p) (by rw [hd])
            rw [hd] at hcycle
            simp [hcycle, Except.map]

theorem attempt_failed {outcome : Except Error Project} {e : Error}
    (h : (p.attempt outcome).2 = .error e) : (p.attempt outcome).1 = p := by
  cases outcome with
  | error e => rfl
  | ok q => cases h

/-- The call adds a language under a name that cannot be written, and so not logged. -/
def isUnlogged : Call → Bool
  | addLanguage name => !name.isWritable
  | _ => false

/-- With derivations in transactions, what a call that fails leaves is the project as it was. -/
theorem run_failed {call : Call} {e : Error} (hc : c.transactional = true)
    (logged : call.isUnlogged = false) (h : (call.run c p).2 = .error e) :
    (call.run c p).1 = p := by
  cases call
  case addLanguage name =>
    have unwritable := (Datum.written_eq_error_iff.mp (map_eq_error_iff.mp h)).1
    simp [isUnlogged, unwritable] at logged
  case derive lang ancestor =>
    rw [run] at h ⊢
    cases hd : p.derivationOf lang ancestor with
    | error e => rfl
    | ok found =>
      obtain ⟨n, a⟩ := found
      rw [hd] at h
      exact derive_failed_same hc (map_eq_error_iff.mp h)
  all_goals exact attempt_failed h

/-- There is one more language in the plain data, whatever its name. -/
theorem toData_addLanguage_ne (p : Project) (name : Datum) :
    (p.addLanguage name).2.toData ≠ p.toData := by
  intro same
  simp [toData, Project.addLanguage, Slots.push, Slots.toData, Datum.record] at same

/-- The language of a name that cannot be written is there when the call fails. -/
theorem run_unlogged {call : Call} (h : call.isUnlogged = true) (c : Config) (p : Project) :
    (call.run c p).2 = .error (.number .unwritable) ∧ (call.run c p).1.toData ≠ p.toData := by
  cases call
  case addLanguage name =>
    have unwritable : name.isWritable = false := by simpa [isUnlogged] using h
    exact ⟨map_eq_error_iff.mpr (Datum.written_eq_error_iff.mpr ⟨unwritable, rfl⟩),
      toData_addLanguage_ne p name⟩
  all_goals cases h

/-- A call that is carried out in place, each look and each write at its place, comes to what the
operation of the project says. With derivations in transactions, one that fails leaves the plain
data of the project as they were, unless it adds a language whose name cannot be written. -/
theorem failed_unchanged (hc : c.transactional = true) (call : Call) (p : Project) :
    (call.perform c).after p = call.run c p ∧
      ∀ e, ((call.perform c).after p).2 = .error e →
        (((call.perform c).after p).1.toData = p.toData ↔ call.isUnlogged = false) := by
  refine ⟨after_perform c call p, fun e h => ?_⟩
  rw [after_perform] at h ⊢
  cases logged : call.isUnlogged with
  | false => simp [run_failed hc logged h]
  | true => simp [(run_unlogged logged c p).2]

/-- The derivation stops at word 3, which is a ghost, when it has found the form of word 0. -/
theorem failed_unchanged_isles :
    (((derive (.int 1) (.int 0)).perform .default).after (isles 3)).2 = .error (.ghost 3) ∧
      (((derive (.int 1) (.int 0)).perform .default).after (isles 3)).1.toData =
        (isles 3).toData := by
  have failed : (((derive (.int 1) (.int 0)).perform .default).after (isles 3)).2 =
      .error (.ghost 3) := rfl
  exact ⟨failed, ((failed_unchanged rfl (derive (.int 1) (.int 0)) (isles 3)).2 _ failed).mpr rfl⟩

/-- A name of 4335 digits. -/
@[irreducible] def vastName : Datum := .int (Nat.pow 16 3600)

theorem isUnlogged_vastName : (addLanguage vastName).isUnlogged = true := by
  have unwritable : vastName.isWritable = false := by
    rw [vastName, Datum.isWritable]
    exact Text.isWritable_eq_false (by decide +kernel)
  rw [isUnlogged, unwritable]
  rfl

/-- The call fails, and the first language is there. -/
theorem failed_changed_vastName :
    Config.default.transactional = true ∧
      (((addLanguage vastName).perform .default).after .empty).2 = .error (.number .unwritable) ∧
      (((addLanguage vastName).perform .default).after .empty).1.toData ≠
        Project.empty.toData := by
  rw [after_perform]
  exact ⟨rfl, run_unlogged isUnlogged_vastName .default .empty⟩

end Call
end Neogrammar
