import Neogrammar.Proofs.Project.File
import Neogrammar.Proofs.Project.Unwritten

/-!
# Storing over a file

A file that a project is stored over has the text of the project afterwards, whole or not: it is
opened before its text is known. The text ends early where a value is not written. In a project that
was loaded and edited such a value is a number of an ancestor, a part of speech or a coordinate, or
stands in a grapheme.
-/
namespace Neogrammar

/-! ## Where a value that is not written stands -/

namespace Datum

variable {f : Format} {lack : Json.Lack}

@[simp] theorem unwritten_null : ¬null.Unwritten f lack := by rintro ⟨⟩

@[simp] theorem unwritten_text (s : String) : ¬(text s).Unwritten f lack := by rintro ⟨⟩

theorem not_unwritten_of_isText {d : Datum} (h : d.isText = true) : ¬d.Unwritten f lack := by
  obtain ⟨s, rfl⟩ := isText_iff.mp h
  exact unwritten_text s

@[simp] theorem unwritten_int {n : Int} :
    (int n).Unwritten f lack ↔ lack = .digits ∧ Text.isWritable n = false := by
  constructor
  · rintro ⟨long⟩
    exact ⟨rfl, long⟩
  · rintro ⟨rfl, long⟩
    exact .number long

@[simp] theorem unwritten_list {xs : List Datum} :
    (list xs).Unwritten f lack ↔ ∃ x ∈ xs, x.Unwritten f lack := by
  constructor
  · rintro (_ | _ | ⟨mem, inner⟩)
    exact ⟨_, mem, inner⟩
  · rintro ⟨x, mem, inner⟩
    exact .item mem inner

/-- The keys of a record are texts. -/
@[simp] theorem unwritten_record {es : List (String × Datum)} :
    (record es).Unwritten f lack ↔ ∃ e ∈ es, e.2.Unwritten f lack := by
  constructor
  · intro h
    cases h with
    | value mem inner =>
      obtain ⟨e, he, rfl⟩ := List.mem_map.mp mem
      exact ⟨e, he, inner⟩
    | key yaml mem inner =>
      obtain ⟨e, he, rfl⟩ := List.mem_map.mp mem
      exact absurd inner (unwritten_text _)
    | keyText json mem none =>
      obtain ⟨e, he, rfl⟩ := List.mem_map.mp mem
      cases none
  · rintro ⟨e, he, inner⟩
    exact .value (List.mem_map_of_mem he) inner

end Datum

open Datum

variable {f : Format} {lack : Json.Lack} {G : Datum → Prop}

theorem Slots.unwritten_toData {α : Type} {item : α → Datum} {s : Slots α} :
    (s.toData item).Unwritten f lack ↔ ∃ a, some a ∈ s.cells ∧ (item a).Unwritten f lack := by
  rw [toData, unwritten_list]
  constructor
  · rintro ⟨d, mem, inner⟩
    obtain ⟨cell, hc, rfl⟩ := List.mem_map.mp mem
    cases cell with
    | none => exact absurd inner unwritten_null
    | some a => exact ⟨a, hc, inner⟩
  · rintro ⟨a, ha, inner⟩
    exact ⟨item a, List.mem_map.mpr ⟨some a, ha, rfl⟩, inner⟩

/-- A coordinate with a number past the digit limit. -/
def Coordinate.IsLong (c : Coordinate) : Prop :=
  Text.isWritable c.lang = false ∨ Text.isWritable c.word = false

/-- A word with a number past the digit limit. -/
def Word.HasLong (w : Word) : Prop :=
  Text.isWritable w.pos = false ∨ ∃ c ∈ w.ancestors, c.IsLong

/-- A language with something that a format does not write: a number of its ancestor or of a word,
or something in a grapheme. -/
inductive Language.Harbours (f : Format) (l : Language) : Json.Lack → Prop
  | ancestor {a : Int} (given : l.ancestor = some a) (long : Text.isWritable a = false) :
      Harbours f l .digits
  | word {w : Word} (live : some w ∈ l.vocab.cells) (long : w.HasLong) : Harbours f l .digits
  | grapheme {lack : Json.Lack} {e : Char × List Datum} {g : Datum}
      (category : e ∈ l.soundChanges.categories.entries) (mem : g ∈ e.2)
      (inner : g.Unwritten f lack) : Harbours f l lack

/-- A live language of a project harbours something that a format does not write. -/
def Project.Harbours (f : Format) (p : Project) (lack : Json.Lack) : Prop :=
  ∃ l, some l ∈ p.languages.cells ∧ l.Harbours f lack

theorem Coordinate.unwritten_toData {c : Coordinate} :
    c.toData.Unwritten f lack ↔ lack = .digits ∧ c.IsLong := by
  simp [toData, IsLong, and_or_left]

theorem Word.Storable.unwritten_toData {w : Word} (h : w.Storable) :
    w.toData.Unwritten f lack ↔ lack = .digits ∧ w.HasLong := by
  have ancestors : (∃ c ∈ w.ancestors, c.toData.Unwritten f lack) ↔
      lack = .digits ∧ ∃ c ∈ w.ancestors, c.IsLong := by
    constructor
    · rintro ⟨c, mem, inner⟩
      obtain ⟨rfl, long⟩ := Coordinate.unwritten_toData.mp inner
      exact ⟨rfl, c, mem, long⟩
    · rintro ⟨rfl, c, mem, long⟩
      exact ⟨c, mem, Coordinate.unwritten_toData.mpr ⟨rfl, long⟩⟩
  have parts : w.toData.Unwritten f lack ↔
      lack = .digits ∧ Text.isWritable w.pos = false ∨
        ∃ c ∈ w.ancestors, c.toData.Unwritten f lack := by
    simp [toData, not_unwritten_of_isText h.surface, not_unwritten_of_isText h.gloss,
      not_unwritten_of_isText h.phonetic, not_unwritten_of_isText h.mnemonic,
      not_unwritten_of_isText h.note]
  rw [parts, ancestors, ← and_or_left, HasLong]

theorem Replace.unwritten_toData (r : Replace) : ¬r.toData.Unwritten f lack := by simp [toData]

theorem SoundChange.Storable.unwritten_toData {s : SoundChange} (h : s.Storable) :
    ¬s.toData.Unwritten f lack := by
  simp [toData, not_unwritten_of_isText h.target, not_unwritten_of_isText h.replacement]

theorem Categories.unwritten_toData {t : Categories} :
    t.toData.Unwritten f lack ↔ ∃ e ∈ t.entries, ∃ g ∈ e.2, g.Unwritten f lack := by
  simp [toData_eq]

theorem Language.unwritten_ancestorData {l : Language} :
    l.ancestorData.Unwritten f lack ↔
      lack = .digits ∧ ∃ a, l.ancestor = some a ∧ Text.isWritable a = false := by
  unfold ancestorData
  split <;> simp [*]

theorem Language.Storable.unwritten_toData {l : Language} (h : l.Storable G) :
    l.toData.Unwritten f lack ↔ l.Harbours f lack := by
  have rules : ¬∃ r ∈ l.soundChanges.rules, r.toData.Unwritten f lack := by
    rintro ⟨r, mem, inner⟩
    exact (h.soundChanges.rules r mem).unwritten_toData inner
  have parts : l.toData.Unwritten f lack ↔ l.ancestorData.Unwritten f lack ∨
      (l.vocab.toData Word.toData).Unwritten f lack ∨
      l.soundChanges.categories.toData.Unwritten f lack := by
    simp [toData, SoundChanges.toData, not_unwritten_of_isText h.name, Replace.unwritten_toData,
      rules]
  rw [parts, unwritten_ancestorData, Slots.unwritten_toData, Categories.unwritten_toData]
  constructor
  · rintro (⟨rfl, a, given, long⟩ | ⟨w, live, inner⟩ | ⟨e, category, g, mem, inner⟩)
    · exact .ancestor given long
    · obtain ⟨rfl, long⟩ := (h.vocab w live).unwritten_toData.mp inner
      exact .word live long
    · exact .grapheme category mem inner
  · intro harbours
    cases harbours with
    | ancestor given long => exact .inl ⟨rfl, _, given, long⟩
    | word live long =>
      exact .inr (.inl ⟨_, live, (h.vocab _ live).unwritten_toData.mpr ⟨rfl, long⟩⟩)
    | grapheme category mem inner => exact .inr (.inr ⟨_, category, _, mem, inner⟩)

theorem PartOfSpeech.Storable.unwritten_toData {p : PartOfSpeech} (h : p.Storable) :
    ¬p.toData.Unwritten f lack := by
  simp [toData, not_unwritten_of_isText h.name, not_unwritten_of_isText h.abbr]

theorem Project.Storable.unwritten_toData {p : Project} (h : p.Storable G) :
    p.toData.Unwritten f lack ↔ p.Harbours f lack := by
  have languages : (∃ l, some l ∈ p.languages.cells ∧ l.toData.Unwritten f lack) ↔
      p.Harbours f lack :=
    exists_congr fun l => and_congr_right fun live => (h.languages l live).unwritten_toData
  have partsOfSpeech : ¬∃ s, some s ∈ p.partsOfSpeech.cells ∧ s.toData.Unwritten f lack := by
    rintro ⟨s, live, inner⟩
    exact (h.partsOfSpeech s live).unwritten_toData inner
  rw [← languages]
  simp [toData, Slots.unwritten_toData, partsOfSpeech]

/-! ## Storing -/

namespace Project

variable {p : Project} {indent : Option Nat} {files : Files} {path old : String}

end Project
end Neogrammar
