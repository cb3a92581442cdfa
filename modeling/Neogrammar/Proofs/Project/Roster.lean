import Neogrammar.Proofs.Project.Derivation

/-!
# The roster of a project

The roster holds the name of each language at its index. Only the operations that add, rename or
remove a language change it, each in one place.
-/
namespace Neogrammar

namespace Datum

theorem same_text_iff {d : Datum} {s : String} : d.same (.text s) = true ↔ d = .text s := by
  cases d <;> simp [same, quantity?]

theorem same_int_iff {m n : Int} : (Datum.int m).same (.int n) = true ↔ m = n := by
  simp [same, quantity?, Quantity.same]

end Datum

@[simp] theorem Language.name_withRules (l : Language) (kind : RuleKind) (rules : List Replace) :
    (l.withRules kind rules).name = l.name := by
  cases kind <;> rfl

theorem Descent.name_derive {l a : Language} {li ai : Int} {ps : Pipelines}
    {transactional : Bool} : (derive l a li ai ps transactional).1.name = l.name := by
  cases hr : refresh ai ps l.vocab.items a.vocab.cells with
  | mk fuses result =>
    cases result with
    | error e =>
      rw [derive_eq_error_of_refresh hr]
      cases transactional <;> rfl
    | ok left =>
      cases hi : inherit ai ps 0 left with
      | error e =>
        rw [derive_eq_error_of_inherit hr hi]
        cases transactional <;> rfl
      | ok fresh => rw [derive_eq_ok hr hi]

namespace Project

variable {p q : Project} {lang : Int} {i : Nat} {name : Datum} {l m : Language} {c : Config}

/-- The names of the languages by their slots. -/
def roster (p : Project) : List (Option Datum) := p.languages.cells.map (Option.map (·.name))

theorem length_roster (p : Project) : p.roster.length = p.languages.size := by
  simp [roster, Slots.size]

theorem roster_eq_some_iff :
    p.roster[i]? = some (some name) ↔ ∃ l, p.languages.find? i = some l ∧ l.name = name := by
  simp [roster, Slots.find?_eq_some_iff]

/-- A whole number on the roster leads to a language. -/
theorem language_of_roster (h : p.roster[i]? = some (some name)) :
    ∃ l, p.language i = .ok l ∧ l.name = name := by
  obtain ⟨l, hl, hn⟩ := roster_eq_some_iff.mp h
  exact ⟨l, language_eq_ok_iff.mpr ⟨Int.natCast_nonneg i, hl⟩, hn⟩

theorem roster_of_language (h : p.language lang = .ok l) :
    p.roster[lang.toNat]? = some (some l.name) :=
  roster_eq_some_iff.mpr ⟨l, (language_eq_ok_iff.mp h).2, rfl⟩

theorem mem_roster_of_findLanguage {s : String} (h : p.findLanguage (.text s) = some i) :
    p.roster[i]? = some (some (.text s)) := by
  obtain ⟨⟨j, l⟩, hf, rfl⟩ := Option.map_eq_some_iff.mp h
  have found := Slots.mem_items.mp (List.mem_of_find?_eq_some hf)
  have named := List.find?_some hf
  exact roster_eq_some_iff.mpr ⟨l, found, Datum.same_text_iff.mp named⟩

/-- A name on the roster leads to a language of that name. -/
theorem findLanguage_of_mem_roster {s : String} (h : some (.text s) ∈ p.roster) :
    ∃ i, p.findLanguage (.text s) = some i := by
  obtain ⟨i, hi⟩ := List.mem_iff_getElem?.mp h
  obtain ⟨l, hl, hn⟩ := roster_eq_some_iff.mp hi
  have hit : ∃ e ∈ p.languages.items, e.2.name.same (.text s) = true :=
    ⟨(i, l), Slots.mem_items.mpr hl, Datum.same_text_iff.mpr hn⟩
  obtain ⟨e, he⟩ := Option.isSome_iff_exists.mp (List.find?_isSome.mpr hit)
  exact ⟨e.1, by simp [findLanguage, Slots.findIndex?, he]⟩

/-! ## Operations that change it -/

theorem roster_withLanguage (p : Project) (lang : Int) (m : Language) :
    (p.withLanguage lang m).roster = p.roster.set lang.toNat (some m.name) := by
  simp [roster, withLanguage, Slots.put, List.map_set]

theorem roster_addLanguage (p : Project) (name : Datum) :
    (p.addLanguage name).2.roster = p.roster ++ [some name] := by
  simp [roster, addLanguage, Slots.push, Language.named]

theorem roster_renameLanguage (h : p.renameLanguage lang name = .ok q) :
    q.roster = p.roster.set lang.toNat (some name) := by
  obtain ⟨l, hl, h⟩ := bind_eq_ok_iff.mp h
  obtain ⟨m, hm, h⟩ := bind_eq_ok_iff.mp h
  cases hm
  cases h
  exact roster_withLanguage p lang _

theorem roster_removeLanguage (h : p.removeLanguage lang = .ok q) :
    q.roster = p.roster.set lang.toNat none := by
  obtain ⟨⟨_, languages⟩, hr, h⟩ := bind_eq_ok_iff.mp h
  cases h
  obtain ⟨i, hi, hr⟩ := bind_eq_ok_iff.mp hr
  cases hr
  rw [locate_int] at hi
  split at hi
  · cases hi
    simp [roster, Slots.put, List.map_set]
  · cases hi

/-! ## Operations that leave it alone -/

/-- A language that keeps its name keeps the roster. -/
theorem roster_withLanguage_same (h : p.language lang = .ok l) (same : m.name = l.name) :
    (p.withLanguage lang m).roster = p.roster := by
  have there := roster_of_language h
  obtain ⟨short, hn⟩ := List.getElem?_eq_some_iff.mp there
  rw [roster_withLanguage, same, ← hn, List.set_getElem_self]

theorem roster_updateLanguage {f : Language → Except Error Language}
    (h : p.updateLanguage lang f = .ok q) (keeps : ∀ l m, f l = .ok m → m.name = l.name) :
    q.roster = p.roster := by
  obtain ⟨l, hl, h⟩ := bind_eq_ok_iff.mp h
  obtain ⟨m, hm, h⟩ := bind_eq_ok_iff.mp h
  cases h
  exact roster_withLanguage_same hl (keeps l m hm)

theorem roster_modifyLanguage {α : Type} {a : α} {f : Language → Except Error (α × Language)}
    (h : p.modifyLanguage lang f = .ok (a, q))
    (keeps : ∀ l a m, f l = .ok (a, m) → m.name = l.name) : q.roster = p.roster := by
  obtain ⟨l, hl, h⟩ := bind_eq_ok_iff.mp h
  obtain ⟨⟨b, m⟩, hm, h⟩ := bind_eq_ok_iff.mp h
  cases h
  exact roster_withLanguage_same hl (keeps l _ m hm)

section

variable {kind : RuleKind} {index pattern replacement : Datum}

theorem roster_setAncestor {ancestor : Option Int} (h : p.setAncestor lang ancestor = .ok q) :
    q.roster = p.roster := by
  refine roster_updateLanguage h fun l m hm => ?_
  split at hm
  · cases hm
    rfl
  · split at hm
    · cases hm
    · obtain ⟨_, -, hm⟩ := bind_eq_ok_iff.mp hm
      cases hm
      rfl

theorem roster_alterPos {abbr : Datum} (h : p.alterPos index name abbr = .ok q) :
    q.roster = p.roster := by
  obtain ⟨_, -, h⟩ := bind_eq_ok_iff.mp h
  cases h
  rfl

theorem roster_removePos (h : p.removePos index = .ok q) : q.roster = p.roster := by
  obtain ⟨_, -, h⟩ := bind_eq_ok_iff.mp h
  cases h
  rfl

theorem roster_addWord {word : Word} {i : Nat} (h : p.addWord c lang word = .ok (i, q)) :
    q.roster = p.roster := by
  refine roster_modifyLanguage h fun l i m hm => ?_
  obtain ⟨_, -, hm⟩ := bind_eq_ok_iff.mp hm
  obtain ⟨_, -, hm⟩ := bind_eq_ok_iff.mp hm
  cases hm
  rfl

theorem roster_alterWord {change : WordChange} {w : Word}
    (h : p.alterWord c lang index change = .ok (w, q)) : q.roster = p.roster := by
  refine roster_modifyLanguage h fun l w m hm => ?_
  obtain ⟨_, -, hm⟩ := bind_eq_ok_iff.mp hm
  obtain ⟨_, -, hm⟩ := bind_eq_ok_iff.mp hm
  obtain ⟨_, -, hm⟩ := bind_eq_ok_iff.mp hm
  obtain ⟨_, -, hm⟩ := bind_eq_ok_iff.mp hm
  cases hm
  rfl

theorem roster_removeWord (h : p.removeWord lang index = .ok q) : q.roster = p.roster := by
  refine roster_updateLanguage h fun l m hm => ?_
  obtain ⟨_, -, hm⟩ := bind_eq_ok_iff.mp hm
  cases hm
  rfl

theorem roster_addRule {i : Nat} (h : p.addRule lang kind pattern replacement = .ok (i, q)) :
    q.roster = p.roster := by
  refine roster_modifyLanguage h fun l i m hm => ?_
  obtain ⟨_, -, hm⟩ := bind_eq_ok_iff.mp hm
  obtain ⟨_, -, hm⟩ := bind_eq_ok_iff.mp hm
  cases hm
  exact Language.name_withRules _ _ _

theorem roster_alterRule (h : p.alterRule lang kind index pattern replacement = .ok q) :
    q.roster = p.roster := by
  refine roster_updateLanguage h fun l m hm => ?_
  obtain ⟨_, -, hm⟩ := bind_eq_ok_iff.mp hm
  obtain ⟨_, -, hm⟩ := bind_eq_ok_iff.mp hm
  obtain ⟨_, -, hm⟩ := bind_eq_ok_iff.mp hm
  cases hm
  exact Language.name_withRules _ _ _

theorem roster_insertRule (h : p.insertRule lang kind index pattern replacement = .ok q) :
    q.roster = p.roster := by
  refine roster_updateLanguage h fun l m hm => ?_
  obtain ⟨_, -, hm⟩ := bind_eq_ok_iff.mp hm
  obtain ⟨_, -, hm⟩ := bind_eq_ok_iff.mp hm
  obtain ⟨_, -, hm⟩ := bind_eq_ok_iff.mp hm
  cases hm
  exact Language.name_withRules _ _ _

theorem roster_removeRule (h : p.removeRule lang kind index = .ok q) : q.roster = p.roster := by
  refine roster_updateLanguage h fun l m hm => ?_
  obtain ⟨_, -, hm⟩ := bind_eq_ok_iff.mp hm
  obtain ⟨_, -, hm⟩ := bind_eq_ok_iff.mp hm
  cases hm
  exact Language.name_withRules _ _ _

theorem roster_addCategory {key content : Datum} (h : p.addCategory lang key content = .ok q) :
    q.roster = p.roster := by
  refine roster_updateLanguage h fun l m hm => ?_
  obtain ⟨_, -, hm⟩ := bind_eq_ok_iff.mp hm
  cases hm
  rfl

theorem roster_removeCategory {key : Datum} (h : p.removeCategory lang key = .ok q) :
    q.roster = p.roster := by
  refine roster_updateLanguage h fun l m hm => ?_
  obtain ⟨_, -, hm⟩ := bind_eq_ok_iff.mp hm
  cases hm
  rfl

theorem roster_addSoundChange {target environment : Datum} {i : Nat}
    (h : p.addSoundChange lang target replacement environment = .ok (i, q)) :
    q.roster = p.roster := by
  refine roster_modifyLanguage h fun l i m hm => ?_
  obtain ⟨_, -, hm⟩ := bind_eq_ok_iff.mp hm
  obtain ⟨_, -, hm⟩ := bind_eq_ok_iff.mp hm
  cases hm
  rfl

theorem roster_alterSoundChange {target environment : Datum}
    (h : p.alterSoundChange lang index target replacement environment = .ok q) :
    q.roster = p.roster := by
  refine roster_updateLanguage h fun l m hm => ?_
  obtain ⟨_, -, hm⟩ := bind_eq_ok_iff.mp hm
  obtain ⟨_, -, hm⟩ := bind_eq_ok_iff.mp hm
  cases hm
  rfl

theorem roster_insertSoundChange {target environment : Datum}
    (h : p.insertSoundChange lang index target replacement environment = .ok q) :
    q.roster = p.roster := by
  refine roster_updateLanguage h fun l m hm => ?_
  obtain ⟨_, -, hm⟩ := bind_eq_ok_iff.mp hm
  obtain ⟨_, -, hm⟩ := bind_eq_ok_iff.mp hm
  cases hm
  rfl

theorem roster_removeSoundChange (h : p.removeSoundChange lang index = .ok q) :
    q.roster = p.roster := by
  refine roster_updateLanguage h fun l m hm => ?_
  obtain ⟨_, -, hm⟩ := bind_eq_ok_iff.mp hm
  cases hm
  rfl

end

/-! ## Operations that may stop half-way -/

theorem roster_derive {ancestor : Int} : (p.derive c lang ancestor).1.roster = p.roster := by
  cases hd : p.derivation c lang ancestor with
  | error e => simp only [derive, hd]
  | ok found =>
    obtain ⟨l, a, ps⟩ := found
    obtain ⟨-, hl, -, -⟩ := derivation_eq_ok_iff.mp hd
    rw [derive_of_derivation hd]
    exact roster_withLanguage_same hl Descent.name_derive

theorem roster_morphLanguage : (p.morphLanguage c lang).1.roster = p.roster := by
  unfold morphLanguage
  cases hl : p.language lang with
  | error e => rfl
  | ok l =>
    cases hps : l.pipelines c.limits with
    | error e => simp only [hps]
    | ok ps =>
      simp only [hps]
      exact roster_withLanguage_same hl rfl

theorem roster_morphLanguages {count : Nat} {langs : List Int} :
    (morphLanguages c p count langs).1.roster = p.roster := by
  induction langs generalizing p count with
  | nil => rfl
  | cons lang langs ih =>
    have first : (p.morphLanguage c lang).1.roster = p.roster := roster_morphLanguage
    rw [morphLanguages]
    split
    all_goals
      rename_i hm
      rw [hm] at first
    · exact first
    · exact ih.trans first

theorem roster_morphAll {lang : Option Int} : (p.morphAll c lang).1.roster = p.roster := by
  cases lang <;> exact roster_morphLanguages

end Project
end Neogrammar
