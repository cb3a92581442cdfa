import Neogrammar.Proofs.Project.Roster
import Neogrammar.Proofs.Request.Checked

/-!
# References to languages

A check foresees which languages there will be: it adds those that the request adds, and knows
nothing of renaming and removing. What it knows is there, then, as long as nothing is renamed or
removed; and what is there it knows, but for names that come from renaming and for languages whose
names are no texts.
-/
namespace Neogrammar.Request

variable {cfg : Config} {p q : Project} {k : Known} {c : Change} {o : Operation}
  {changes : List Change} {d name : Datum} {r : List (Option Datum)}

/-! ## What a change does to the roster -/

/-- How a change may alter a roster: it is one of three operations, or it leaves the roster alone
and does not name a language that it adds. -/
inductive RosterStep (c : Change) (r : List (Option Datum)) : List (Option Datum) → Prop
  | same (ha : Operation.ofName? c.operation = some .addLanguage → c.field? "name" = none) :
      RosterStep c r r
  | added {name : Datum} (ho : Operation.ofName? c.operation = some .addLanguage)
      (hn : c.field? "name" = some name) : RosterStep c r (r ++ [some name])
  | renamed {old name : Datum} {i : Nat}
      (ho : Operation.ofName? c.operation = some .renameLanguage)
      (hn : c.field? "name" = some name) (held : r[i]? = some (some old)) :
      RosterStep c r (r.set i (some name))
  | removed (i : Nat) (ho : Operation.ofName? c.operation = some .removeLanguage) :
      RosterStep c r (r.set i none)

theorem RosterStep.keep {r' : List (Option Datum)} (ho : Operation.ofName? c.operation = some o)
    (other : o ≠ .addLanguage) (h : r' = r) : RosterStep c r r' := by
  rw [h]
  exact .same fun adds => absurd (Option.some.inj (ho.symm.trans adds)) other

theorem rosterStep_made {report : Except Error Done}
    (ho : Operation.ofName? c.operation = some o) (made : Made cfg p c o q report) :
    RosterStep c p.roster q.roster := by
  cases made with
  | addLanguage hn =>
    rw [Project.roster_addLanguage]
    exact .added ho (need_eq_ok_iff.mp hn)
  | renameLanguage _ hn h =>
    obtain ⟨l, hl, -⟩ := bind_eq_ok_iff.mp h
    rw [Project.roster_renameLanguage h]
    exact .renamed ho (need_eq_ok_iff.mp hn) (Project.roster_of_language hl)
  | removeLanguage _ h =>
    rw [Project.roster_removeLanguage h]
    exact .removed _ ho
  | setAncestor _ _ h => exact .keep ho nofun (Project.roster_setAncestor h)
  | addPos => exact .keep ho nofun rfl
  | alterPos _ _ _ h => exact .keep ho nofun (Project.roster_alterPos h)
  | removePos _ h => exact .keep ho nofun (Project.roster_removePos h)
  | addWord _ _ h => exact .keep ho nofun (Project.roster_addWord h)
  | alterWord _ _ _ h => exact .keep ho nofun (Project.roster_alterWord h)
  | removeWord _ _ h => exact .keep ho nofun (Project.roster_removeWord h)
  | addRule _ _ _ _ h => exact .keep ho nofun (Project.roster_addRule h)
  | alterRule _ _ _ _ _ h => exact .keep ho nofun (Project.roster_alterRule h)
  | insertRule _ _ _ _ _ h => exact .keep ho nofun (Project.roster_insertRule h)
  | removeRule _ _ _ h => exact .keep ho nofun (Project.roster_removeRule h)
  | addSoundChange _ _ _ _ h => exact .keep ho nofun (Project.roster_addSoundChange h)
  | alterSoundChange _ _ _ _ _ h => exact .keep ho nofun (Project.roster_alterSoundChange h)
  | insertSoundChange _ _ _ _ _ h => exact .keep ho nofun (Project.roster_insertSoundChange h)
  | removeSoundChange _ _ h => exact .keep ho nofun (Project.roster_removeSoundChange h)
  | addCategory _ _ _ h => exact .keep ho nofun (Project.roster_addCategory h)
  | removeCategory _ _ h => exact .keep ho nofun (Project.roster_removeCategory h)
  | derive => exact .keep ho nofun Project.roster_derive
  | morph => exact .keep ho nofun Project.roster_morphAll

theorem rosterStep_runChange (p : Project) (cfg : Config) (index : Nat) (c : Change) :
    RosterStep c p.roster (runChange p cfg index c).1.roster := by
  cases ho : Operation.ofName? c.operation with
  | none =>
    simp only [runChange, ho]
    exact .same (by simp [ho])
  | some o =>
    rw [runChange_project ho]
    rcases apply_cases p cfg o c with ⟨e, he⟩ | made
    · rw [he]
      refine .same fun adds => ?_
      obtain rfl : o = .addLanguage := Option.some.inj (ho.symm.trans adds)
      cases hn : c.field? "name" with
      | none => rfl
      | some name =>
        -- a language that is named is added, so something was done
        have size := congrArg (·.1.languages.size) he
        simp [apply, addLanguage, need_eq_ok_iff.mpr hn, applied, Project.addLanguage, pure,
          Except.pure] at size
    · exact rosterStep_made ho made

/-! ## What is known is there -/

/-- Every language that is known is on the roster, and the next index is the one that an added
language gets. -/
structure Tracks (k : Known) (r : List (Option Datum)) : Prop where
  next : k.next = r.length
  indices : ∀ i ∈ k.indices, ∃ name, r[i]? = some (some name)
  names : ∀ name ∈ k.names, some name ∈ r

theorem mem_indices_ofProject {i : Nat} :
    i ∈ (Known.ofProject p).indices ↔ ∃ name, p.roster[i]? = some (some name) := by
  simp [Known.ofProject, Slots.mem_items, Project.roster_eq_some_iff]

theorem mem_names_ofProject : name ∈ (Known.ofProject p).names ↔ some name ∈ p.roster := by
  have placed : some name ∈ p.roster ↔ ∃ i, p.roster[i]? = some (some name) :=
    List.mem_iff_getElem?
  simp [Known.ofProject, Slots.mem_items, Project.roster_eq_some_iff, placed]

theorem tracks_ofProject (p : Project) : Tracks (.ofProject p) p.roster where
  next := (Project.length_roster p).symm
  indices _ := mem_indices_ofProject.mp
  names _ := mem_names_ofProject.mp

theorem Tracks.add (h : Tracks k r) (name : Datum) : Tracks (k.add name) (r ++ [some name]) := by
  constructor
  · simp [Known.add, h.next]
  · intro i hi
    rcases List.mem_cons.mp hi with rfl | hi
    · exact ⟨name, by simp [h.next]⟩
    · obtain ⟨old, ho⟩ := h.indices i hi
      have short := (List.getElem?_eq_some_iff.mp ho).1
      exact ⟨old, by rw [List.getElem?_append_left short, ho]⟩
  · intro n hn
    rcases List.mem_cons.mp hn with rfl | hn
    · simp
    · exact List.mem_append_left _ (h.names n hn)

/-- A change that does not add a language by a text adds nothing to what is known. -/
theorem after_eq_self (h : Operation.ofName? c.operation = some .addLanguage →
    ∀ s, c.field? "name" ≠ some (.text s)) : k.after c = k := by
  unfold Known.after
  split
  · rename_i s ho hn
    exact absurd hn (h ho s)
  · rfl

theorem after_added {s : String} (ho : Operation.ofName? c.operation = some .addLanguage)
    (hn : c.field? "name" = some (.text s)) : k.after c = k.add (.text s) := by
  simp only [Known.after, ho, hn]

/-- Where nothing is renamed or removed, and languages are added by texts, what is known stays in
step with the roster. -/
theorem Tracks.step {r' : List (Option Datum)} (h : Tracks k r) (step : RosterStep c r r')
    (texts : TextFields c) (renames : Operation.ofName? c.operation ≠ some .renameLanguage)
    (removes : Operation.ofName? c.operation ≠ some .removeLanguage) : Tracks (k.after c) r' := by
  cases step with
  | same none =>
    rw [after_eq_self fun ho s hn => by simp [none ho] at hn]
    exact h
  | @added name ho hn =>
    obtain ⟨s, rfl⟩ := Datum.isText_iff.mp (texts "name" (by simp [textFields]) name hn)
    rw [after_added ho hn]
    exact h.add _
  | renamed ho => exact absurd ho renames
  | removed _ ho => exact absurd ho removes

/-- A run of changes that were checked stays in step. -/
theorem tracks_projectAfter (texts : ∀ c ∈ changes, TextFields c)
    (kept : ∀ c ∈ changes, Operation.ofName? c.operation ≠ some .renameLanguage ∧
      Operation.ofName? c.operation ≠ some .removeLanguage) :
    Tracks (changes.foldl Known.after (.ofProject p)) (projectAfter cfg p changes).roster := by
  induction changes using List.reverseRecOn with
  | nil => exact tracks_ofProject p
  | append_singleton changes c ih =>
    rw [List.forall_mem_append] at texts kept
    have here := List.mem_singleton_self c
    rw [List.foldl_concat, projectAfter_concat]
    exact (ih texts.1 kept.1).step (rosterStep_runChange _ _ _ _) (texts.2 c here)
      (kept.2 c here).1 (kept.2 c here).2

/-- A reference that is known leads to a language. -/
theorem Tracks.resolves (h : Tracks k p.roster) (has : k.has d = true)
    (hd : isReference d = true) :
    ∃ i l, languageOf p d = .ok i ∧ p.language i = .ok l := by
  cases d with
  | text s =>
    obtain ⟨name, hn, same⟩ := List.any_eq_true.mp has
    obtain rfl := Datum.same_text_iff.mp same
    obtain ⟨i, hi⟩ := Project.findLanguage_of_mem_roster (h.names _ hn)
    obtain ⟨l, hl, -⟩ := Project.language_of_roster (Project.mem_roster_of_findLanguage hi)
    exact ⟨i, l, by simp only [languageOf, hi], hl⟩
  | int n =>
    obtain ⟨i, hi, same⟩ := List.any_eq_true.mp has
    obtain rfl := Datum.same_int_iff.mp same
    obtain ⟨name, hn⟩ := h.indices i hi
    obtain ⟨l, hl, -⟩ := Project.language_of_roster hn
    exact ⟨i, l, rfl, hl⟩
  | _ => cases hd

/-- Where a request that was checked neither renames nor removes a language, each reference to one
leads to a language at the time when its change is executed, also to one that the request has added
by then, and whatever fails before. -/
theorem references_resolve {s : Session} {result : CheckResult} {place : Nat} (request : Request)
    (checked : request.check (some s.project) = .ok result) (valid : result.isValid = true)
    (kept : ∀ c ∈ request.changes, Operation.ofName? c.operation ≠ some .renameLanguage ∧
      Operation.ofName? c.operation ≠ some .removeLanguage)
    (hc : request.changes[place]? = some c) :
    let before := projectAfter s.config s.project (request.changes.take place)
    (request.run s false false).2.changes[place]? =
        some (runChange before s.config place c).2 ∧
      ∀ field ∈ languageFields, ∀ d, c.field? field = some d → d.isNull = false →
        ∃ i l, languageOf before d = .ok i ∧ before.language i = .ok l := by
  have nothing : result.errors = [] := List.isEmpty_iff.mp valid
  have texts := textFields_of_checkFrom checked nothing
  obtain ⟨o, -, formed, known⟩ := accepted_of_checkFrom checked nothing hc
  have tracks : Tracks ((request.changes.take place).foldl Known.after (.ofProject s.project))
      (projectAfter s.config s.project (request.changes.take place)).roster :=
    tracks_projectAfter (fun b hb => texts b (List.mem_of_mem_take hb))
      fun b hb => kept b (List.mem_of_mem_take hb)
  constructor
  · rw [runIn_changes, runAll_getElem?, hc, Nat.zero_add]
    rfl
  · intro field hf d hd given
    exact tracks.resolves (known _ _ rfl field hf d hd given)
      ((fitting_of_kindComplaints formed.kinds).languages field hf d hd given)

/-- A request that adds a language, fails to remove a part of speech, and then refers to the new
language by its name and to the old one by its index. -/
def newcomer : Request :=
  ⟨[⟨"add_language", [("name", "Anta")], some 2⟩, ⟨"remove_pos", [("index", .int 0)], some 3⟩,
    ⟨"set_ancestor", [("language", "Anta"), ("ancestor", .int 0)], some 4⟩], .null, .null, .null⟩

theorem references_resolve_newcomer :
    newcomer.check (some bare) = .ok ⟨[], []⟩ ∧
      (∀ c ∈ newcomer.changes, Operation.ofName? c.operation ≠ some .renameLanguage ∧
        Operation.ofName? c.operation ≠ some .removeLanguage) ∧
      ((newcomer.run (.ofProject bare .default) false false).2.changes.map (·.success)) =
        [true, false, true] ∧
      let before := projectAfter .default bare (newcomer.changes.take 2)
      ∃ i l, languageOf before "Anta" = .ok i ∧ before.language i = .ok l := by
  have kept : ∀ c ∈ newcomer.changes, Operation.ofName? c.operation ≠ some .renameLanguage ∧
      Operation.ofName? c.operation ≠ some .removeLanguage := by decide
  refine ⟨rfl, kept, rfl, ?_⟩
  exact (references_resolve (s := .ofProject bare .default) newcomer rfl rfl kept rfl).2 "language"
    (by decide) "Anta" rfl rfl

end Neogrammar.Request
