import Mathlib.Data.List.Basic
import Neogrammar.Proofs.Datum.Plain
import Neogrammar.Proofs.Project.Storable

/-!
# Projects whose data are plain

What a storable project whose graphemes are texts is written as.
-/
namespace Neogrammar

open Datum

theorem Datum.plain_of_isText {d : Datum} {n : Nat} (h : d.isText = true) : d.Plain n := by
  obtain ⟨s, rfl⟩ := isText_iff.mp h
  exact .text s

theorem plain_fields {es : List (String × Datum)} {n : Nat} (keys : (es.map (·.1)).Nodup)
    (short : es.Forall (·.1.length ≤ keyLimit)) (values : es.Forall (·.2.Plain n)) :
    (Datum.record es).Plain (n + 1) :=
  .record keys (List.forall_iff_forall_mem.mp short) (List.forall_iff_forall_mem.mp values)

theorem plain_map {α : Type} {write : α → Datum} {as : List α} {n : Nat}
    (h : ∀ a ∈ as, (write a).Plain n) : (Datum.list (as.map write)).Plain (n + 1) :=
  .list (List.forall_mem_map.mpr h)

theorem Slots.All.plain {α : Type} {P : α → Prop} {write : α → Datum} {s : Slots α} {n : Nat}
    (h : s.All P) (each : ∀ a, P a → (write a).Plain n) : (s.toData write).Plain (n + 1) := by
  refine plain_map fun cell hc => ?_
  cases cell with
  | none => exact .null
  | some a => exact each a (h a hc)

theorem Coordinate.plain (c : Coordinate) : c.toData.Plain 1 := by
  refine plain_fields (by simp) (by simp [keyLimit]; decide) ?_
  exact ⟨.int _, .int _⟩

theorem Word.Storable.plain {w : Word} (h : w.Storable) : w.toData.Plain 3 := by
  refine plain_fields (by simp) (by simp [keyLimit]; decide) ?_
  exact ⟨plain_of_isText h.surface, plain_of_isText h.gloss, .int _, plain_of_isText h.phonetic,
    plain_of_isText h.mnemonic, plain_of_isText h.note, plain_map fun c _ => c.plain⟩

theorem Replace.plain (r : Replace) {n : Nat} : r.toData.Plain (n + 1) := by
  refine plain_fields (by simp) (by simp [keyLimit]; decide) ?_
  exact ⟨.text _, .text _⟩

theorem SoundChange.Storable.plain {s : SoundChange} (h : s.Storable) : s.toData.Plain 1 := by
  refine plain_fields (by simp) (by simp [keyLimit]; decide) ?_
  exact ⟨plain_of_isText h.target, plain_of_isText h.replacement, .text _⟩

/-- The data of a table of categories as a record. -/
theorem Categories.toData_eq (t : Categories) :
    t.toData = .record (t.entries.map fun e => (e.1.toString, .list e.2)) := by
  simp [toData, record, Function.comp_def]

theorem Categories.Storable.plain {t : Categories} (h : t.Storable (·.isText)) :
    t.toData.Plain 2 := by
  rw [toData_eq]
  refine .record ?_ ?_ ?_
  · have apart : Function.Injective fun c : Char => c.toString := by
      intro c d hcd
      simpa using congrArg String.toList hcd
    simpa [Function.comp_def] using h.keys.map apart
  · rw [List.forall_mem_map]
    intro e _
    rw [Char.toString, String.length_singleton]
    decide
  · rw [List.forall_mem_map]
    exact fun e he => .list fun g hg => plain_of_isText (h.graphemes e he g hg).2

theorem SoundChanges.Storable.plain {c : SoundChanges} (h : c.Storable (·.isText)) :
    c.toData.Plain 3 := by
  refine plain_fields (by simp) (by simp [keyLimit]; decide) ?_
  exact ⟨h.categories.plain, plain_map fun s hs => (h.rules s hs).plain⟩

theorem Language.plain_ancestorData (l : Language) {n : Nat} : l.ancestorData.Plain n := by
  unfold ancestorData
  split
  · exact .null
  · exact .int _

theorem Language.Storable.plain {l : Language} (h : l.Storable (·.isText)) :
    l.toData.Plain 5 := by
  refine plain_fields (by simp) (by simp [keyLimit]; decide) ?_
  exact ⟨plain_of_isText h.name, l.plain_ancestorData, h.vocab.plain fun _ hw => hw.plain,
    plain_map fun r _ => r.plain, plain_map fun r _ => r.plain,
    h.soundChanges.plain.mono (Nat.le_succ 3)⟩

theorem PartOfSpeech.Storable.plain {p : PartOfSpeech} (h : p.Storable) {n : Nat} :
    p.toData.Plain (n + 1) := by
  refine plain_fields (by simp) (by simp [keyLimit]; decide) ?_
  exact ⟨plain_of_isText h.name, plain_of_isText h.abbr⟩

theorem Project.Storable.plain {p : Project} (h : p.Storable (·.isText)) : p.toData.Plain 7 := by
  refine plain_fields (by simp) (by simp [keyLimit]; decide) ?_
  exact ⟨.text _, h.languages.plain fun _ hl => hl.plain,
    h.partsOfSpeech.plain fun _ hs => hs.plain⟩

end Neogrammar
