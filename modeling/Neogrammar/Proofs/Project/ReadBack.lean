import Neogrammar.Proofs.Project.Storable

/-!
# Storable projects are read back

Each part of a storable project is what is read from the plain data that it is written as, so a
storable project and its plain data determine each other.
-/
namespace Neogrammar

/-- What is written item by item is read item by item. -/
theorem mapM_map_eq_ok {ε α β : Type} {f : β → Except ε α} {g : α → β} {as : List α}
    (h : ∀ a ∈ as, f (g a) = .ok a) : (as.map g).mapM f = .ok as := by
  rw [List.mapM_map]
  exact (mapM_eq_ok (g := id) h).trans (by rw [List.map_id])

namespace Datum

variable {es : List (String × Datum)} {key : String} {d : Datum}

@[simp] theorem field?_record (key : String) (es : List (String × Datum)) :
    field? key (es.map fun e => (text e.1, e.2)) = es.lookup key := by
  induction es with
  | nil => rfl
  | cons e es ih =>
    obtain ⟨k, v⟩ := e
    simp only [List.map_cons, field?, List.lookup_cons]
    by_cases h : k = key
    · simp [h]
    · rw [if_neg h, ih, beq_false_of_ne (Ne.symm h)]

theorem get?_record (h : es.lookup key = some d) : (record es).get? key = .ok (some d) := by
  simp [get?, record, h]

theorem need_record (h : es.lookup key = some d) : (record es).need key = .ok d := by
  simp [need, record, h]

theorem needText_record (h : es.lookup key = some d) (hd : d.isText = true) :
    (record es).needText key = .ok d.display := by
  rw [needText, need_record h]
  exact written_of_isText hd

theorem textOr_record {fallback : String} (h : es.lookup key = some d) (hd : d.isText = true) :
    (record es).textOr key fallback = .ok d.display := by
  rw [textOr, get?_record h]
  exact written_of_isText hd

theorem elementsAt_record {items : List Datum} (h : es.lookup key = some (.list items)) :
    (record es).elementsAt key = .ok items := by
  rw [elementsAt, get?_record h]
  cases items <;> rfl

theorem mapAt_record {entries : List (Datum × Datum)} (h : es.lookup key = some (.map entries)) :
    (record es).mapAt key = .ok (.map entries) := by
  rw [mapAt, get?_record h]
  cases entries <;> rfl

end Datum

/-! ## Parts of projects -/

theorem Coordinate.ofData_toData (c : Coordinate) : ofData c.toData = .ok c := by
  rw [ofData, toData, Datum.need_record rfl, ok_bind, Datum.toWhole, ok_bind,
    Datum.need_record rfl, ok_bind]
  rfl

theorem Word.Storable.ofData_toData {w : Word} (h : w.Storable) : ofData w.toData = .ok w := by
  have ancestors : (w.ancestors.map Coordinate.toData).mapM Coordinate.ofData = .ok w.ancestors :=
    mapM_map_eq_ok fun c _ => c.ofData_toData
  have read : ofData w.toData = .ok ⟨.text w.mnemonic.display, .text w.gloss.display, w.pos,
      .text w.note.display, w.ancestors, .text w.surface.display, .text w.phonetic.display⟩ := by
    rw [ofData, toData, Datum.needText_record rfl h.mnemonic, ok_bind,
      Datum.textOr_record rfl h.gloss, ok_bind, Datum.get?_record rfl, ok_bind, Option.getD_some,
      Datum.toWhole, ok_bind, Datum.textOr_record rfl h.note, ok_bind,
      Datum.elementsAt_record rfl, ok_bind, ancestors, ok_bind,
      Datum.textOr_record rfl h.surface, ok_bind, Datum.textOr_record rfl h.phonetic, ok_bind]
    rfl
  rw [read, Datum.display_of_isText h.mnemonic, Datum.display_of_isText h.gloss,
    Datum.display_of_isText h.note, Datum.display_of_isText h.surface,
    Datum.display_of_isText h.phonetic]

theorem Replace.Compiles.ofData_toData {r : Replace} (h : r.Compiles) : ofData r.toData = .ok r := by
  obtain ⟨s, hs⟩ := h
  rw [ofData, toData, Datum.needText_record rfl rfl, ok_bind, Datum.needText_record rfl rfl,
    ok_bind, Datum.display_text, Datum.display_text]
  exact bind_eq_ok_iff.mpr ⟨s, hs, rfl⟩

theorem SoundChange.Storable.ofData_toData {s : SoundChange} (h : s.Storable) :
    ofData s.toData = .ok s := by
  have read : ofData s.toData =
      .ok ⟨.text s.target.display, .text s.replacement.display, s.environment⟩ := by
    rw [ofData, toData, Datum.needText_record rfl h.target, ok_bind,
      Datum.needText_record rfl h.replacement, ok_bind, Datum.needText_record rfl rfl, ok_bind]
    rfl
  rw [read, Datum.display_of_isText h.target, Datum.display_of_isText h.replacement]

namespace Categories

variable {G : Datum → Prop} {t : Categories}

/-- A category that is not there yet is added last. -/
theorem add_absent {c : Char} {graphemes : List Datum} (nonempty : graphemes ≠ [])
    (truthy : ∀ g ∈ graphemes, g.truthy = true) (absent : c ∉ t.entries.map (·.1)) :
    t.add (.text c.toString) (.list graphemes) = .ok ⟨t.entries ++ [(c, graphemes)]⟩ := by
  have size : (Datum.text c.toString).size? = some 1 := by simp [Datum.size?]
  have accepted : (graphemes.isEmpty || graphemes.any (!·.truthy)) = false := by
    simpa [nonempty] using truthy
  have key : keyOf? (.text c.toString) = some c := by simp [keyOf?]
  simp only [Categories.add, size, Datum.elements?, accepted, key, putEntry_absent absent]
  rfl

/-- Categories are read in their order behind those that are there. -/
theorem ofEntries_map {before after : List (Char × List Datum)}
    (h : (⟨before ++ after⟩ : Categories).Storable G) :
    ofEntries (after.map fun e => (.text e.1.toString, .list e.2)) ⟨before⟩ =
      .ok ⟨before ++ after⟩ := by
  induction after generalizing before with
  | nil =>
    rw [List.append_nil]
    rfl
  | cons e after ih =>
    obtain ⟨c, graphemes⟩ := e
    have keys := h.keys
    have here : (c, graphemes) ∈ before ++ (c, graphemes) :: after := by simp
    have absent : c ∉ before.map (·.1) := by
      rw [List.map_append, List.map_cons, List.nodup_append] at keys
      exact fun hc => keys.2.2 c hc c List.mem_cons_self rfl
    have added := add_absent (t := ⟨before⟩) (h.filled _ here)
      (fun g hg => (h.graphemes _ here g hg).1) absent
    rw [List.append_cons] at h ⊢
    rw [List.map_cons, ofEntries, added, ok_bind]
    exact ih h

theorem Storable.ofData_toData (h : t.Storable G) : ofData t.toData = .ok t :=
  ofEntries_map h

end Categories

theorem SoundChanges.Storable.ofData_toData {G : Datum → Prop} {c : SoundChanges}
    (h : c.Storable G) : ofData c.toData = .ok c := by
  have rules : (c.rules.map SoundChange.toData).mapM SoundChange.ofData = .ok c.rules :=
    mapM_map_eq_ok fun s hs => (h.rules s hs).ofData_toData
  have categories : c.toData.mapAt "categories" = .ok c.categories.toData := Datum.mapAt_record rfl
  rw [ofData, categories, ok_bind, h.categories.ofData_toData, ok_bind, toData,
    Datum.elementsAt_record rfl, ok_bind, rules, ok_bind]
  rfl

theorem Slots.All.ofItems_map {α : Type} {P : α → Prop} {write : α → Datum}
    {read : Datum → Except Error α} {s : Slots α} (h : s.All P)
    (each : ∀ a, P a → read (write a) = .ok a ∧ (write a).isNull = false) :
    Slots.ofItems read (s.cells.map fun cell => (cell.map write).getD .null) = .ok s := by
  rw [Slots.ofItems, mapM_map_eq_ok, ok_bind]
  · rfl
  · intro cell hcell
    cases cell with
    | none => rfl
    | some a =>
      obtain ⟨hread, null⟩ := each a (h a hcell)
      rw [Option.map_some, Option.getD_some, null, hread]
      rfl

namespace Language

variable {G : Datum → Prop} {l : Language}

/-- The name, ancestor, vocabulary and plain rules of a language are read back. -/
theorem Storable.ofData_toData (h : l.Storable G) : ofData l.toData = .ok l := by
  have changes : l.toData.mapAt "sound_changes" = .ok l.soundChanges.toData :=
    Datum.mapAt_record rfl
  have vocab := h.vocab.ofItems_map fun w (hw : w.Storable) => ⟨hw.ofData_toData, rfl⟩
  have surface : (l.surfaceRules.map Replace.toData).mapM Replace.ofData = .ok l.surfaceRules :=
    mapM_map_eq_ok fun r hr => (h.surfaceRules r hr).ofData_toData
  have phonetic : (l.phoneticRules.map Replace.toData).mapM Replace.ofData = .ok l.phoneticRules :=
    mapM_map_eq_ok fun r hr => (h.phoneticRules r hr).ofData_toData
  have parts (ancestor : Option Int) :
      ofParts l.toData l.name.display ancestor l.soundChanges = .ok { l with ancestor } := by
    rw [ofParts, toData, Datum.elementsAt_record rfl, ok_bind, vocab, ok_bind,
      Datum.elementsAt_record rfl, ok_bind, surface, ok_bind, Datum.elementsAt_record rfl, ok_bind,
      phonetic, ok_bind, Datum.display_of_isText h.name]
    rfl
  rw [ofData, changes, ok_bind, h.soundChanges.ofData_toData, ok_bind, toData,
    Datum.get?_record rfl, ok_bind, Datum.needText_record rfl h.name, ok_bind]
  cases l with
  | mk name ancestor => cases ancestor <;> exact parts _

end Language

theorem PartOfSpeech.Storable.ofData_toData {p : PartOfSpeech} (h : p.Storable) :
    ofData p.toData = .ok p := by
  have read : ofData p.toData = .ok ⟨.text p.name.display, .text p.abbr.display⟩ := by
    rw [ofData, toData, Datum.needText_record rfl h.name, ok_bind,
      Datum.needText_record rfl h.abbr, ok_bind]
    rfl
  rw [read, Datum.display_of_isText h.name, Datum.display_of_isText h.abbr]

namespace Project

/-- A storable project is read back from its plain data as it was. -/
theorem Storable.ofData_toData {G : Datum → Prop} {p : Project} (h : p.Storable G) :
    ofData p.toData = .ok p := by
  have languages := h.languages.ofItems_map fun l (hl : l.Storable G) => ⟨hl.ofData_toData, rfl⟩
  have pos := h.partsOfSpeech.ofItems_map fun s (hs : s.Storable) => ⟨hs.ofData_toData, rfl⟩
  have items : ofItems p.toData = .ok p := by
    rw [ofItems, toData, Datum.elementsAt_record rfl, ok_bind, languages, ok_bind,
      Datum.elementsAt_record rfl, ok_bind, pos, ok_bind]
    rfl
  have version : (Datum.text dataVersion).written = .ok dataVersion := rfl
  simp only [toData, Datum.record, List.map_cons, List.map_nil] at items ⊢
  simp only [ofData, Datum.field?, if_true, Option.elim_some, version, ne_eq, not_true_eq_false,
    if_false, items]

/-- The storable projects are those that plain data keep. -/
theorem ofData_toData_iff {p : Project} : ofData p.toData = .ok p ↔ p.Storable fun _ => True :=
  ⟨storable_of_ofData, Storable.ofData_toData⟩

end Project
end Neogrammar
