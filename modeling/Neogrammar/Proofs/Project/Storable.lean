import Neogrammar.Project.Data
import Neogrammar.Proofs.Slots
import Neogrammar.Proofs.SoundChange.Letters

/-!
# Projects that plain data keep

A storable project holds texts where texts belong, plain rules that compile, and categories with
keys of their own and graphemes that are not empty. Whatever is read from plain data is storable,
and a storable project written as plain data is read back as it was.
-/
namespace Neogrammar

/-! ## Slots -/

namespace Slots

variable {α : Type} {P : α → Prop} {s : Slots α}

/-- Every cell that is not empty holds a value with a property. -/
def All (P : α → Prop) (s : Slots α) : Prop := ∀ a, some a ∈ s.cells → P a

theorem all_empty : (empty : Slots α).All P := by simp [All, empty]

theorem All.of_find? {i : Nat} {a : α} (h : s.All P) (ha : s.find? i = some a) : P a :=
  h a (List.mem_of_getElem? (find?_eq_some_iff.mp ha))

theorem All.of_get {index : Datum} {a : α} (h : s.All P) (ha : s.get index = .ok a) : P a := by
  obtain ⟨i, -, ha⟩ := bind_eq_ok_iff.mp ha
  cases hf : s.find? i with
  | none =>
    simp only [hf] at ha
    cases ha
  | some b =>
    simp only [hf] at ha
    cases ha
    exact h.of_find? hf

theorem All.push {a : α} (h : s.All P) (ha : P a) : (s.push (some a)).All P := by
  intro b hb
  rcases List.mem_append.mp hb with hb | hb
  · exact h b hb
  · rw [List.mem_singleton, Option.some.injEq] at hb
    exact hb ▸ ha

theorem All.put {i : Nat} {cell : Option α} (h : s.All P) (hc : ∀ a, cell = some a → P a) :
    (s.put i cell).All P := by
  intro a ha
  rcases List.mem_or_eq_of_mem_set ha with ha | ha
  · exact h a ha
  · exact hc a ha.symm

theorem All.set {t : Slots α} {index : Datum} {a : α} (h : s.All P) (ha : P a)
    (ht : s.set index (some a) = .ok t) : t.All P := by
  obtain ⟨i, -, ht⟩ := bind_eq_ok_iff.mp ht
  cases ht
  exact h.put fun b hb => Option.some.inj hb ▸ ha

theorem All.remove {t : Slots α} {index : Datum} {old : Option α} (h : s.All P)
    (ht : s.remove index = .ok (old, t)) : t.All P := by
  obtain ⟨i, -, ht⟩ := bind_eq_ok_iff.mp ht
  cases ht
  exact h.put fun b hb => by cases hb

end Slots

/-! ## Parts of projects -/

namespace Datum

theorem isText_iff {d : Datum} : d.isText = true ↔ ∃ s, d = .text s := by
  cases d <;> simp [isText]

theorem written_of_isText {d : Datum} (h : d.isText = true) : d.written = .ok d.display := by
  obtain ⟨s, rfl⟩ := isText_iff.mp h
  rfl

/-- A text is the text that is displayed of it. -/
theorem display_of_isText {d : Datum} (h : d.isText = true) : .text d.display = d := by
  obtain ⟨s, rfl⟩ := isText_iff.mp h
  rfl

end Datum

/-- All that is authored or computed of a word is text. -/
structure Word.Storable (w : Word) : Prop where
  mnemonic : w.mnemonic.isText = true
  gloss : w.gloss.isText = true
  note : w.note.isText = true
  surface : w.surface.isText = true
  phonetic : w.phonetic.isText = true

/-- A plain rule that compiles. -/
def Replace.Compiles (r : Replace) : Prop := ∃ s, r.compile .default = .ok s

structure SoundChange.Storable (s : SoundChange) : Prop where
  target : s.target.isText = true
  replacement : s.replacement.isText = true

/-- No key comes twice, and no category is without graphemes; each of them counts as true and is
of a kind `G`. -/
structure Categories.Storable (G : Datum → Prop) (t : Categories) : Prop where
  keys : (t.entries.map (·.1)).Nodup
  filled : t.Filled
  graphemes : ∀ e ∈ t.entries, ∀ g ∈ e.2, g.truthy = true ∧ G g

structure SoundChanges.Storable (G : Datum → Prop) (c : SoundChanges) : Prop where
  categories : c.categories.Storable G
  rules : ∀ s ∈ c.rules, s.Storable

structure Language.Storable (G : Datum → Prop) (l : Language) : Prop where
  name : l.name.isText = true
  vocab : l.vocab.All Word.Storable
  surfaceRules : ∀ r ∈ l.surfaceRules, r.Compiles
  phoneticRules : ∀ r ∈ l.phoneticRules, r.Compiles
  soundChanges : l.soundChanges.Storable G

structure PartOfSpeech.Storable (p : PartOfSpeech) : Prop where
  name : p.name.isText = true
  abbr : p.abbr.isText = true

/-- A project that plain data keep, with graphemes of a kind `G`. -/
structure Project.Storable (G : Datum → Prop) (p : Project) : Prop where
  languages : p.languages.All (Language.Storable G)
  partsOfSpeech : p.partsOfSpeech.All PartOfSpeech.Storable

/-! ## Reading gives storable projects -/

namespace Categories

variable {G : Datum → Prop} {t u : Categories} {key content : Datum}

/-- What a category that was added consists of. -/
theorem add_accepted (h : t.add key content = .ok u) :
    ∃ c graphemes, keyOf? key = some c ∧ content.elements? = some graphemes ∧ graphemes ≠ [] ∧
      (∀ g ∈ graphemes, g.truthy = true) ∧ u = ⟨putEntry c graphemes t.entries⟩ := by
  obtain ⟨c, graphemes, hc, hg, nonempty, hu⟩ := add_eq_ok h
  refine ⟨c, graphemes, hc, hg, nonempty, ?_, hu⟩
  unfold Categories.add at h
  split at h
  · cases h
  split at h
  · cases h
  simp only [hg] at h
  split at h
  · cases h
  rename_i accepted
  simp only [Bool.or_eq_true, List.any_eq_true, Bool.not_eq_true', not_or, not_exists, not_and,
    Bool.not_eq_false] at accepted
  exact accepted.2

theorem keys_putEntry (c : Char) (graphemes : List Datum) (entries : List (Char × List Datum)) :
    (putEntry c graphemes entries).map (·.1) =
      if c ∈ entries.map (·.1) then entries.map (·.1) else entries.map (·.1) ++ [c] := by
  induction entries with
  | nil => simp [putEntry]
  | cons first entries ih =>
    obtain ⟨k, old⟩ := first
    by_cases hk : k = c
    · simp [putEntry, hk]
    · have hk' : ¬c = k := fun he => hk he.symm
      by_cases hc : c ∈ entries.map (·.1)
      · simp only [putEntry, if_neg hk, List.map_cons, ih, List.mem_cons, hc, or_true, if_true]
      · simp only [putEntry, if_neg hk, List.map_cons, ih, List.mem_cons, hk', hc, or_false, if_false,
          List.cons_append]

/-- A key that is not there is put last. -/
theorem putEntry_absent {c : Char} {graphemes : List Datum} {entries : List (Char × List Datum)}
    (absent : c ∉ entries.map (·.1)) : putEntry c graphemes entries = entries ++ [(c, graphemes)] := by
  induction entries with
  | nil => rfl
  | cons first entries ih =>
    obtain ⟨k, old⟩ := first
    simp only [List.map_cons, List.mem_cons, not_or] at absent
    rw [putEntry, if_neg (Ne.symm absent.1), ih absent.2, List.cons_append]

theorem storable_empty : (empty : Categories).Storable G :=
  ⟨List.nodup_nil, filled_empty, by simp [empty]⟩

/-- What holds of all graphemes, and of those that are added, holds after adding them. -/
theorem add_all {P : Datum → Prop} (h : t.add key content = .ok u)
    (ht : ∀ e ∈ t.entries, ∀ g ∈ e.2, P g)
    (kind : ∀ graphemes, content.elements? = some graphemes →
      ∀ g ∈ graphemes, g.truthy = true → P g) : ∀ e ∈ u.entries, ∀ g ∈ e.2, P g := by
  obtain ⟨c, graphemes, -, hg, -, truthy, rfl⟩ := add_accepted h
  intro e he g hge
  rcases mem_putEntry he with rfl | he
  · exact kind graphemes hg g hge (truthy g hge)
  · exact ht e he g hge

theorem remove_eq_ok {graphemes : List Datum} (h : t.remove key = .ok (graphemes, u)) :
    ∃ c, u = ⟨t.entries.filter fun e => e.1 != c⟩ := by
  unfold Categories.remove at h
  split at h
  · cases h
  split at h
  · cases h
  split at h
  · cases h
  cases h
  exact ⟨_, rfl⟩

/-- Adding a category with graphemes of the kind keeps a table storable. -/
theorem Storable.add (ht : t.Storable G) (h : t.add key content = .ok u)
    (kind : ∀ graphemes, content.elements? = some graphemes →
      ∀ g ∈ graphemes, g.truthy = true → G g) : u.Storable G := by
  refine ⟨?_, ht.filled.add h, add_all h ht.graphemes fun gs hgs g hg truthy =>
    ⟨truthy, kind gs hgs g hg truthy⟩⟩
  obtain ⟨c, graphemes, -, -, -, -, hu⟩ := add_accepted h
  rw [hu, keys_putEntry]
  split
  · exact ht.keys
  · rename_i absent
    rw [List.nodup_append]
    refine ⟨ht.keys, List.nodup_singleton c, ?_⟩
    rintro a ha b hb rfl
    exact absent (List.mem_singleton.mp hb ▸ ha)

theorem Storable.remove {graphemes : List Datum} (ht : t.Storable G)
    (h : t.remove key = .ok (graphemes, u)) : u.Storable G := by
  have filled := ht.filled.remove h
  obtain ⟨c, rfl⟩ := remove_eq_ok h
  exact ⟨ht.keys.sublist (List.filter_sublist.map _), filled,
    fun e he => ht.graphemes e (List.mem_of_mem_filter he)⟩

theorem Storable.ofEntries {entries : List (Datum × Datum)} (ht : t.Storable fun _ => True)
    (h : ofEntries entries t = .ok u) : u.Storable fun _ => True := by
  induction entries generalizing t with
  | nil =>
    cases h
    exact ht
  | cons entry entries ih =>
    obtain ⟨v, added, rest⟩ := bind_eq_ok_iff.mp h
    exact ih (ht.add added fun _ _ _ _ _ => trivial) rest

theorem storable_of_ofData {d : Datum} (h : ofData d = .ok t) : t.Storable fun _ => True := by
  unfold ofData at h
  split at h
  · exact storable_empty.ofEntries h
  · cases h

end Categories

theorem Word.storable_of_ofData {d : Datum} {w : Word} (h : Word.ofData d = .ok w) :
    w.Storable := by
  simp only [ofData, bind_eq_ok_iff] at h
  obtain ⟨_, -, _, -, _, -, _, -, _, -, _, -, _, -, _, -, _, -, h⟩ := h
  cases h
  exact ⟨rfl, rfl, rfl, rfl, rfl⟩

theorem Replace.compiles_of_ofData {d : Datum} {r : Replace} (h : Replace.ofData d = .ok r) :
    r.Compiles := by
  simp only [ofData, bind_eq_ok_iff] at h
  obtain ⟨_, -, _, -, s, hs, h⟩ := h
  cases h
  exact ⟨s, hs⟩

theorem SoundChange.storable_of_ofData {d : Datum} {s : SoundChange}
    (h : SoundChange.ofData d = .ok s) : s.Storable := by
  simp only [ofData, bind_eq_ok_iff] at h
  obtain ⟨_, -, _, -, _, -, h⟩ := h
  cases h
  exact ⟨rfl, rfl⟩

theorem SoundChanges.storable_of_ofData {d : Datum} {c : SoundChanges}
    (h : SoundChanges.ofData d = .ok c) : c.Storable fun _ => True := by
  simp only [ofData, bind_eq_ok_iff] at h
  obtain ⟨_, -, categories, hc, _, -, rules, hr, h⟩ := h
  cases h
  exact ⟨Categories.storable_of_ofData hc, mapM_all hr fun _ _ => SoundChange.storable_of_ofData⟩

theorem Slots.all_ofItems {α : Type} {P : α → Prop} {item : Datum → Except Error α}
    {items : List Datum} {s : Slots α} (h : Slots.ofItems item items = .ok s)
    (each : ∀ d a, item d = .ok a → P a) : s.All P := by
  obtain ⟨cells, hc, h⟩ := bind_eq_ok_iff.mp h
  cases h
  refine fun a ha => mapM_all (P := fun cell => ∀ a, cell = some a → P a) hc ?_ _ ha a rfl
  intro d cell hd a hcell
  subst hcell
  split at hd
  · cases hd
  · obtain ⟨b, hb, he⟩ := map_eq_ok_iff.mp hd
    cases he
    exact each d a hb

namespace Language

/-- Read the words and plain rules of a language of which all else is known. -/
def ofParts (d : Datum) (name : String) (ancestor : Option Int) (soundChanges : SoundChanges) :
    Except Error Language := do
  let vocab ← d.elementsAt "vocab"
  let vocab ← Slots.ofItems Word.ofData vocab
  let surfaceRules ← d.elementsAt "surface_rules"
  let surfaceRules ← surfaceRules.mapM Replace.ofData
  let phoneticRules ← d.elementsAt "phonetic_rules"
  let phoneticRules ← phoneticRules.mapM Replace.ofData
  pure ⟨name, ancestor, vocab, surfaceRules, phoneticRules, soundChanges⟩

/-- The parts that a language is read from, its ancestor among them, if it has one. -/
theorem ofData_eq_ok {d : Datum} {l : Language} (h : ofData d = .ok l) :
    ∃ categories soundChanges name ancestor, d.mapAt "sound_changes" = .ok categories ∧
      SoundChanges.ofData categories = .ok soundChanges ∧ d.needText "name" = .ok name ∧
      ofParts d name ancestor soundChanges = .ok l := by
  simp only [ofData, bind_eq_ok_iff] at h
  obtain ⟨categories, hc, soundChanges, hs, given, -, name, hn, h⟩ := h
  refine ⟨categories, soundChanges, name, ?_⟩
  split at h
  · exact ⟨none, hc, hs, hn, h⟩
  · exact ⟨none, hc, hs, hn, h⟩
  · obtain ⟨ancestor, -, h⟩ := bind_eq_ok_iff.mp h
    exact ⟨ancestor, hc, hs, hn, h⟩

theorem storable_of_ofData {d : Datum} {l : Language} (h : ofData d = .ok l) :
    l.Storable fun _ => True := by
  obtain ⟨categories, soundChanges, name, ancestor, -, hs, -, h⟩ := ofData_eq_ok h
  simp only [ofParts, bind_eq_ok_iff] at h
  obtain ⟨_, -, vocab, hv, _, -, surface, hsr, _, -, phonetic, hpr, h⟩ := h
  cases h
  exact ⟨rfl, Slots.all_ofItems hv fun _ _ => Word.storable_of_ofData,
    mapM_all hsr fun _ _ => Replace.compiles_of_ofData,
    mapM_all hpr fun _ _ => Replace.compiles_of_ofData, SoundChanges.storable_of_ofData hs⟩

end Language

theorem PartOfSpeech.storable_of_ofData {d : Datum} {p : PartOfSpeech}
    (h : PartOfSpeech.ofData d = .ok p) : p.Storable := by
  simp only [ofData, bind_eq_ok_iff] at h
  obtain ⟨_, -, _, -, h⟩ := h
  cases h
  exact ⟨rfl, rfl⟩

namespace Project

/-- A project is read from a map whose version, if it has one, is the known one. -/
theorem ofItems_of_ofData {d : Datum} {p : Project} (h : ofData d = .ok p) : ofItems d = .ok p := by
  cases d with
  | map es =>
    simp only [ofData] at h
    split at h
    · cases h
    split at h
    · cases h
    · cases hi : ofItems (.map es) with
      | ok q =>
        rw [hi] at h
        cases h
        rfl
      | error e =>
        rw [hi] at h
        cases h
  | _ => cases h

/-- A project that was read is storable. -/
theorem storable_of_ofData {d : Datum} {p : Project} (h : ofData d = .ok p) :
    p.Storable fun _ => True := by
  have h := ofItems_of_ofData h
  simp only [ofItems, bind_eq_ok_iff] at h
  obtain ⟨_, -, languages, hl, _, -, pos, hp, h⟩ := h
  cases h
  exact ⟨Slots.all_ofItems hl fun _ _ => Language.storable_of_ofData,
    Slots.all_ofItems hp fun _ _ => PartOfSpeech.storable_of_ofData⟩

end Project
end Neogrammar
