import Neogrammar.Proofs.Outcome
import Neogrammar.Request.Run

/-!
# What a change does

A change either fails before anything is done, or its fields and references were found and one
operation of the project was carried out with them. What holds of every change is read off the
second case, operation by operation.
-/
namespace Neogrammar.Request

variable {cfg : Config} {p q : Project} {c : Change} {o : Operation}

theorem need_eq_ok_iff {name : String} {d : Datum} :
    need c name = .ok d ↔ c.field? name = some d := by
  unfold need
  split <;> simp [*]

/-- What was done for a change, by operation: the project after it, and its report. A derivation and
the computation of all forms may fail half-way; whatever else is done has returned. -/
inductive Made (cfg : Config) (p : Project) (c : Change) :
    Operation → Project → Except Error Done → Prop
  | addLanguage {name : Datum} (hn : need c "name" = .ok name) :
      Made cfg p c .addLanguage (p.addLanguage name).2 (addedLanguage name p.languages.size)
  | renameLanguage {lang : Int} {name : Datum} {q : Project}
      (hl : needLanguage p c "language" = .ok lang) (hn : need c "name" = .ok name)
      (h : p.renameLanguage lang name = .ok q) :
      Made cfg p c .renameLanguage q (renamedLanguage lang name)
  | removeLanguage {lang : Int} {q : Project} (hl : needLanguage p c "language" = .ok lang)
      (h : p.removeLanguage lang = .ok q) :
      Made cfg p c .removeLanguage q (.ok (removedLanguage lang))
  | setAncestor {lang : Int} {ancestor : Option Int} {q : Project}
      (hl : needLanguage p c "language" = .ok lang) (ha : ancestorOf p c = .ok ancestor)
      (h : p.setAncestor lang ancestor = .ok q) :
      Made cfg p c .setAncestor q (.ok (ancestorSet lang ancestor))
  | addPos {name abbr : Datum} (hn : need c "name" = .ok name) (ha : need c "abbr" = .ok abbr) :
      Made cfg p c .addPos (p.addPos name abbr).2 (addedPos abbr p.partsOfSpeech.size)
  | alterPos {index name abbr : Datum} {q : Project} (hi : need c "index" = .ok index)
      (hn : need c "name" = .ok name) (ha : need c "abbr" = .ok abbr)
      (h : p.alterPos index name abbr = .ok q) :
      Made cfg p c .alterPos q (.ok (alteredPos index))
  | removePos {index : Datum} {q : Project} (hi : need c "index" = .ok index)
      (h : p.removePos index = .ok q) : Made cfg p c .removePos q (.ok (removedPos index))
  | addWord {lang : Int} {word : Word} {i : Nat} {q : Project}
      (hl : needLanguage p c "language" = .ok lang) (hw : enteredWord p c = .ok word)
      (h : p.addWord cfg lang word = .ok (i, q)) : Made cfg p c .addWord q (addedWord q lang i)
  | alterWord {lang : Int} {change : WordChange} {index : Datum} {w : Word} {q : Project}
      (hl : needLanguage p c "language" = .ok lang) (hw : wordChangeOf p c = .ok change)
      (hi : need c "index" = .ok index) (h : p.alterWord cfg lang index change = .ok (w, q)) :
      Made cfg p c .alterWord q (alteredWord lang index w)
  | removeWord {lang : Int} {index : Datum} {q : Project}
      (hl : needLanguage p c "language" = .ok lang) (hi : need c "index" = .ok index)
      (h : p.removeWord lang index = .ok q) :
      Made cfg p c .removeWord q (.ok (removedWord lang index))
  | addRule {kind : RuleKind} {lang : Int} {pattern replacement : Datum} {i : Nat} {q : Project}
      (plain : kind ≠ .soundChange) (hl : needLanguage p c "language" = .ok lang)
      (hp : need c "pattern" = .ok pattern) (hr : need c "replacement" = .ok replacement)
      (h : p.addRule lang kind pattern replacement = .ok (i, q)) :
      Made cfg p c (.rule kind .add) q (.ok (createdIn lang (ruleMessage kind .add (.nat i)) i))
  | alterRule {kind : RuleKind} {lang : Int} {index pattern replacement : Datum} {q : Project}
      (plain : kind ≠ .soundChange) (hl : needLanguage p c "language" = .ok lang)
      (hi : need c "index" = .ok index) (hp : need c "pattern" = .ok pattern)
      (hr : need c "replacement" = .ok replacement)
      (h : p.alterRule lang kind index pattern replacement = .ok q) :
      Made cfg p c (.rule kind .alter) q (.ok (doneIn lang (ruleMessage kind .alter index)))
  | insertRule {kind : RuleKind} {lang : Int} {index pattern replacement : Datum} {q : Project}
      (plain : kind ≠ .soundChange) (hl : needLanguage p c "language" = .ok lang)
      (hi : need c "index" = .ok index) (hp : need c "pattern" = .ok pattern)
      (hr : need c "replacement" = .ok replacement)
      (h : p.insertRule lang kind index pattern replacement = .ok q) :
      Made cfg p c (.rule kind .insert) q (.ok (doneIn lang (ruleMessage kind .insert index)))
  | removeRule {kind : RuleKind} {lang : Int} {index : Datum} {q : Project}
      (plain : kind ≠ .soundChange) (hl : needLanguage p c "language" = .ok lang)
      (hi : need c "index" = .ok index) (h : p.removeRule lang kind index = .ok q) :
      Made cfg p c (.rule kind .remove) q (.ok (doneIn lang (ruleMessage kind .remove index)))
  | addSoundChange {lang : Int} {target replacement environment : Datum} {i : Nat} {q : Project}
      (hl : needLanguage p c "language" = .ok lang) (ht : need c "target" = .ok target)
      (hr : need c "replacement" = .ok replacement) (he : need c "environment" = .ok environment)
      (h : p.addSoundChange lang target replacement environment = .ok (i, q)) :
      Made cfg p c (.rule .soundChange .add) q
        (.ok (createdIn lang (ruleMessage .soundChange .add (.nat i)) i))
  | alterSoundChange {lang : Int} {index target replacement environment : Datum} {q : Project}
      (hl : needLanguage p c "language" = .ok lang) (hi : need c "index" = .ok index)
      (ht : need c "target" = .ok target) (hr : need c "replacement" = .ok replacement)
      (he : need c "environment" = .ok environment)
      (h : p.alterSoundChange lang index target replacement environment = .ok q) :
      Made cfg p c (.rule .soundChange .alter) q
        (.ok (doneIn lang (ruleMessage .soundChange .alter index)))
  | insertSoundChange {lang : Int} {index target replacement environment : Datum} {q : Project}
      (hl : needLanguage p c "language" = .ok lang) (hi : need c "index" = .ok index)
      (ht : need c "target" = .ok target) (hr : need c "replacement" = .ok replacement)
      (he : need c "environment" = .ok environment)
      (h : p.insertSoundChange lang index target replacement environment = .ok q) :
      Made cfg p c (.rule .soundChange .insert) q
        (.ok (doneIn lang (ruleMessage .soundChange .insert index)))
  | removeSoundChange {lang : Int} {index : Datum} {q : Project}
      (hl : needLanguage p c "language" = .ok lang) (hi : need c "index" = .ok index)
      (h : p.removeSoundChange lang index = .ok q) :
      Made cfg p c (.rule .soundChange .remove) q
        (.ok (doneIn lang (ruleMessage .soundChange .remove index)))
  | addCategory {lang : Int} {key content : Datum} {q : Project}
      (hl : needLanguage p c "language" = .ok lang) (hk : need c "key" = .ok key)
      (hc : need c "content" = .ok content) (h : p.addCategory lang key content = .ok q) :
      Made cfg p c .addCategory q (.ok (addedCategory lang key))
  | removeCategory {lang : Int} {key : Datum} {q : Project}
      (hl : needLanguage p c "language" = .ok lang) (hk : need c "key" = .ok key)
      (h : p.removeCategory lang key = .ok q) :
      Made cfg p c .removeCategory q (.ok (removedCategory lang key))
  | derive {lang ancestor : Int} (hl : needLanguage p c "language" = .ok lang)
      (ha : needLanguage p c "ancestor" = .ok ancestor) :
      Made cfg p c .derive (p.derive cfg lang ancestor).1
        ((p.derive cfg lang ancestor).2.map fun r => doneIn lang (derivationMessage r))
  | morph {lang : Option Int} (hl : morphLanguageOf p c = .ok lang) :
      Made cfg p c .morph (p.morphAll cfg lang).1 ((p.morphAll cfg lang).2.map (recomputed lang))

/-! ## One lemma per operation -/

section

variable {kind : RuleKind} {report : Except Error Done}

theorem made_addLanguage (h : addLanguage p c = .ok (q, report)) :
    Made cfg p c .addLanguage q report := by
  obtain ⟨name, hn, h⟩ := bind_eq_ok_iff.mp h
  cases h
  exact .addLanguage hn

theorem made_renameLanguage (h : renameLanguage p c = .ok (q, report)) :
    Made cfg p c .renameLanguage q report := by
  obtain ⟨lang, hl, h⟩ := bind_eq_ok_iff.mp h
  obtain ⟨name, hn, h⟩ := bind_eq_ok_iff.mp h
  obtain ⟨_, done, h⟩ := bind_eq_ok_iff.mp h
  cases h
  exact .renameLanguage hl hn done

theorem made_removeLanguage (h : removeLanguage p c = .ok (q, report)) :
    Made cfg p c .removeLanguage q report := by
  obtain ⟨lang, hl, h⟩ := bind_eq_ok_iff.mp h
  obtain ⟨_, done, h⟩ := bind_eq_ok_iff.mp h
  cases h
  exact .removeLanguage hl done

theorem made_setAncestor (h : setAncestor p c = .ok (q, report)) :
    Made cfg p c .setAncestor q report := by
  obtain ⟨lang, hl, h⟩ := bind_eq_ok_iff.mp h
  obtain ⟨ancestor, ha, h⟩ := bind_eq_ok_iff.mp h
  obtain ⟨_, done, h⟩ := bind_eq_ok_iff.mp h
  cases h
  exact .setAncestor hl ha done

theorem made_addPos (h : addPos p c = .ok (q, report)) : Made cfg p c .addPos q report := by
  obtain ⟨name, hn, h⟩ := bind_eq_ok_iff.mp h
  obtain ⟨abbr, ha, h⟩ := bind_eq_ok_iff.mp h
  cases h
  exact .addPos hn ha

theorem made_alterPos (h : alterPos p c = .ok (q, report)) : Made cfg p c .alterPos q report := by
  obtain ⟨index, hi, h⟩ := bind_eq_ok_iff.mp h
  obtain ⟨name, hn, h⟩ := bind_eq_ok_iff.mp h
  obtain ⟨abbr, ha, h⟩ := bind_eq_ok_iff.mp h
  obtain ⟨_, done, h⟩ := bind_eq_ok_iff.mp h
  cases h
  exact .alterPos hi hn ha done

theorem made_removePos (h : removePos p c = .ok (q, report)) :
    Made cfg p c .removePos q report := by
  obtain ⟨index, hi, h⟩ := bind_eq_ok_iff.mp h
  obtain ⟨_, done, h⟩ := bind_eq_ok_iff.mp h
  cases h
  exact .removePos hi done

theorem made_addWord (h : addWord p cfg c = .ok (q, report)) :
    Made cfg p c .addWord q report := by
  obtain ⟨lang, hl, h⟩ := bind_eq_ok_iff.mp h
  obtain ⟨word, hw, h⟩ := bind_eq_ok_iff.mp h
  obtain ⟨⟨i, _⟩, done, h⟩ := bind_eq_ok_iff.mp h
  cases h
  exact .addWord hl hw done

theorem made_alterWord (h : alterWord p cfg c = .ok (q, report)) :
    Made cfg p c .alterWord q report := by
  obtain ⟨lang, hl, h⟩ := bind_eq_ok_iff.mp h
  obtain ⟨change, hw, h⟩ := bind_eq_ok_iff.mp h
  obtain ⟨index, hi, h⟩ := bind_eq_ok_iff.mp h
  obtain ⟨⟨w, _⟩, done, h⟩ := bind_eq_ok_iff.mp h
  cases h
  exact .alterWord hl hw hi done

theorem made_removeWord (h : removeWord p c = .ok (q, report)) :
    Made cfg p c .removeWord q report := by
  obtain ⟨lang, hl, h⟩ := bind_eq_ok_iff.mp h
  obtain ⟨index, hi, h⟩ := bind_eq_ok_iff.mp h
  obtain ⟨_, done, h⟩ := bind_eq_ok_iff.mp h
  cases h
  exact .removeWord hl hi done

theorem made_addRule (h : addRule p c kind = .ok (q, report)) :
    Made cfg p c (.rule kind .add) q report := by
  obtain ⟨lang, hl, h⟩ := bind_eq_ok_iff.mp h
  cases kind
  case soundChange =>
    obtain ⟨target, ht, h⟩ := bind_eq_ok_iff.mp h
    obtain ⟨replacement, hr, h⟩ := bind_eq_ok_iff.mp h
    obtain ⟨environment, he, h⟩ := bind_eq_ok_iff.mp h
    obtain ⟨⟨i, _⟩, done, h⟩ := bind_eq_ok_iff.mp h
    cases h
    exact .addSoundChange hl ht hr he done
  all_goals
    obtain ⟨pattern, hp, h⟩ := bind_eq_ok_iff.mp h
    obtain ⟨replacement, hr, h⟩ := bind_eq_ok_iff.mp h
    obtain ⟨⟨i, _⟩, done, h⟩ := bind_eq_ok_iff.mp h
    cases h
    exact .addRule (by simp) hl hp hr done

theorem made_alterRule (h : alterRule p c kind = .ok (q, report)) :
    Made cfg p c (.rule kind .alter) q report := by
  obtain ⟨lang, hl, h⟩ := bind_eq_ok_iff.mp h
  obtain ⟨index, hi, h⟩ := bind_eq_ok_iff.mp h
  cases kind
  case soundChange =>
    obtain ⟨target, ht, h⟩ := bind_eq_ok_iff.mp h
    obtain ⟨replacement, hr, h⟩ := bind_eq_ok_iff.mp h
    obtain ⟨environment, he, h⟩ := bind_eq_ok_iff.mp h
    obtain ⟨_, done, h⟩ := bind_eq_ok_iff.mp h
    cases h
    exact .alterSoundChange hl hi ht hr he done
  all_goals
    obtain ⟨pattern, hp, h⟩ := bind_eq_ok_iff.mp h
    obtain ⟨replacement, hr, h⟩ := bind_eq_ok_iff.mp h
    obtain ⟨_, done, h⟩ := bind_eq_ok_iff.mp h
    cases h
    exact .alterRule (by simp) hl hi hp hr done

theorem made_insertRule (h : insertRule p c kind = .ok (q, report)) :
    Made cfg p c (.rule kind .insert) q report := by
  obtain ⟨lang, hl, h⟩ := bind_eq_ok_iff.mp h
  obtain ⟨index, hi, h⟩ := bind_eq_ok_iff.mp h
  cases kind
  case soundChange =>
    obtain ⟨target, ht, h⟩ := bind_eq_ok_iff.mp h
    obtain ⟨replacement, hr, h⟩ := bind_eq_ok_iff.mp h
    obtain ⟨environment, he, h⟩ := bind_eq_ok_iff.mp h
    obtain ⟨_, done, h⟩ := bind_eq_ok_iff.mp h
    cases h
    exact .insertSoundChange hl hi ht hr he done
  all_goals
    obtain ⟨pattern, hp, h⟩ := bind_eq_ok_iff.mp h
    obtain ⟨replacement, hr, h⟩ := bind_eq_ok_iff.mp h
    obtain ⟨_, done, h⟩ := bind_eq_ok_iff.mp h
    cases h
    exact .insertRule (by simp) hl hi hp hr done

theorem made_removeRule (h : removeRule p c kind = .ok (q, report)) :
    Made cfg p c (.rule kind .remove) q report := by
  obtain ⟨lang, hl, h⟩ := bind_eq_ok_iff.mp h
  obtain ⟨index, hi, h⟩ := bind_eq_ok_iff.mp h
  cases kind
  case soundChange =>
    obtain ⟨_, done, h⟩ := bind_eq_ok_iff.mp h
    cases h
    exact .removeSoundChange hl hi done
  all_goals
    obtain ⟨_, done, h⟩ := bind_eq_ok_iff.mp h
    cases h
    exact .removeRule (by simp) hl hi done

theorem made_addCategory (h : addCategory p c = .ok (q, report)) :
    Made cfg p c .addCategory q report := by
  obtain ⟨lang, hl, h⟩ := bind_eq_ok_iff.mp h
  obtain ⟨key, hk, h⟩ := bind_eq_ok_iff.mp h
  obtain ⟨content, hc, h⟩ := bind_eq_ok_iff.mp h
  obtain ⟨_, done, h⟩ := bind_eq_ok_iff.mp h
  cases h
  exact .addCategory hl hk hc done

theorem made_removeCategory (h : removeCategory p c = .ok (q, report)) :
    Made cfg p c .removeCategory q report := by
  obtain ⟨lang, hl, h⟩ := bind_eq_ok_iff.mp h
  obtain ⟨key, hk, h⟩ := bind_eq_ok_iff.mp h
  obtain ⟨_, done, h⟩ := bind_eq_ok_iff.mp h
  cases h
  exact .removeCategory hl hk done

end

/-! ## Every operation -/

theorem applied_cases {result : Except Error Outcome}
    (made : ∀ q report, result = .ok (q, report) → Made cfg p c o q report) :
    (∃ e, applied p result = (p, .error e)) ∨
      Made cfg p c o (applied p result).1 (applied p result).2 := by
  cases result with
  | error e => exact .inl ⟨e, rfl⟩
  | ok outcome => exact .inr (made outcome.1 outcome.2 rfl)

/-- A change fails with nothing done, or it is made. -/
theorem apply_cases (p : Project) (cfg : Config) (o : Operation) (c : Change) :
    (∃ e, apply p cfg o c = (p, .error e)) ∨
      Made cfg p c o (apply p cfg o c).1 (apply p cfg o c).2 := by
  cases o with
  | addLanguage => exact applied_cases fun _ _ => made_addLanguage
  | renameLanguage => exact applied_cases fun _ _ => made_renameLanguage
  | removeLanguage => exact applied_cases fun _ _ => made_removeLanguage
  | setAncestor => exact applied_cases fun _ _ => made_setAncestor
  | addPos => exact applied_cases fun _ _ => made_addPos
  | alterPos => exact applied_cases fun _ _ => made_alterPos
  | removePos => exact applied_cases fun _ _ => made_removePos
  | addWord => exact applied_cases fun _ _ => made_addWord
  | alterWord => exact applied_cases fun _ _ => made_alterWord
  | removeWord => exact applied_cases fun _ _ => made_removeWord
  | rule kind action =>
    cases action with
    | add => exact applied_cases fun _ _ => made_addRule
    | alter => exact applied_cases fun _ _ => made_alterRule
    | insert => exact applied_cases fun _ _ => made_insertRule
    | remove => exact applied_cases fun _ _ => made_removeRule
  | addCategory => exact applied_cases fun _ _ => made_addCategory
  | removeCategory => exact applied_cases fun _ _ => made_removeCategory
  | derive =>
    rw [apply, derive]
    cases h : derivationOf p c with
    | error e => exact .inl ⟨e, rfl⟩
    | ok langs =>
      obtain ⟨lang, hl, h⟩ := bind_eq_ok_iff.mp h
      obtain ⟨ancestor, ha, h⟩ := bind_eq_ok_iff.mp h
      cases h
      exact .inr (.derive hl ha)
  | morph =>
    rw [apply, morph]
    cases h : morphLanguageOf p c with
    | error e => exact .inl ⟨e, rfl⟩
    | ok lang => exact .inr (.morph h)

/-- A change that succeeds was made. -/
theorem made_of_apply {done : Done} (h : (apply p cfg o c).2 = .ok done) :
    Made cfg p c o (apply p cfg o c).1 (.ok done) := by
  rcases apply_cases p cfg o c with ⟨e, he⟩ | made
  · rw [he] at h
    cases h
  · exact h ▸ made

end Neogrammar.Request
