import Neogrammar.Project.File
import Neogrammar.Proofs.Files
import Neogrammar.Proofs.Json.ReadBack
import Neogrammar.Proofs.Project.Edits
import Neogrammar.Proofs.Project.Plain
import Neogrammar.Proofs.Yaml.ReadBack

/-!
# Projects in files

A project that was edited from nothing is stored whole, and loading the file gives that project.
-/
namespace Neogrammar.Project

/-- The whole numbers of a project are not too long to be read from their numerals. -/
def Countable (p : Project) : Prop := ∀ d ∈ p.toData.leaves, d.IsShort

instance (p : Project) : Decidable p.Countable :=
  inferInstanceAs (Decidable (∀ d ∈ p.toData.leaves, d.IsShort))

theorem storable_edited (c : Config) (edits : List Edit) :
    ((Session.ofProject empty c).edited edits).project.Storable (·.isText) :=
  ((Session.storable_ofProject storable_empty c).edited (fun _ => rfl) edits).project

/-- A project whose text has no carriage returns and is read as its data is loaded from the file
that it was stored in. -/
theorem load_stored {p : Project} {indent : Option Nat} {files : Files} {path : String}
    {s : List Char} (hp : ofData p.toData = .ok p) (hs : p.save (.ofPath path) indent = .of s)
    (clean : '\r' ∉ s) (hread : readText path (String.ofList s) = .ok p.toData)
    (hd : files.hasDirectory (Path.parent path) = true) :
    ∃ stored, p.store indent files path = (stored, .ok ()) ∧ load stored path = .ok p := by
  obtain ⟨stored, written⟩ := Files.exists_write? hd (String.ofList s)
  have text : stored.read? path = some (String.ofList s) := by
    rw [Files.read?_of_write? written, String.toList_ofList, Files.unifyBreaks_clean clean]
  refine ⟨stored, ?_, ?_⟩
  · unfold store
    rw [hs]
    dsimp only [Json.Written.of]
    rw [written]
  · rw [load, text]
    simp only [ofText, hread, ok_bind, hp]
    rfl

/-! ## JSON -/

theorem save_json {p : Project} (h : p.Storable (·.isText)) (hn : p.Countable)
    (indent : Option Nat) :
    ∃ s, p.save .json indent = .of s ∧ '\r' ∉ s ∧ Json.readChars? s = .ok p.toData := by
  have saved (l : Json.Layout) : ∃ s, (Json.write l 0 p.toData).andThen (.of ['\n']) = .of s ∧
      '\r' ∉ s ∧ Json.readChars? s = .ok p.toData := by
    obtain ⟨s, hwrite, clean, hread⟩ := Json.read_write h.plain hn l
    exact ⟨s ++ ['\n'], by rw [hwrite, Json.Written.of_andThen], by simpa using clean, hread⟩
  cases indent with
  | none => exact saved .line
  | some width => exact saved (.indented width)

/-- A project that was edited from nothing comes back from the JSON file that it was stored in,
whatever its texts and the indentation. -/
theorem edited_load_json (c : Config) (edits : List Edit) (indent : Option Nat) (files : Files)
    (path : String) (hn : ((Session.ofProject empty c).edited edits).project.Countable)
    (hf : Format.ofPath path = .json) (hd : files.hasDirectory (Path.parent path) = true) :
    ∃ stored,
      ((Session.ofProject empty c).edited edits).project.store indent files path =
        (stored, .ok ()) ∧
      load stored path = .ok ((Session.ofProject empty c).edited edits).project := by
  have storable := storable_edited c edits
  obtain ⟨s, hs, clean, hread⟩ := save_json storable hn indent
  refine load_stored storable.ofData_toData (hf ▸ hs) clean ?_ hd
  simp only [readText, hf, Json.read, String.toList_ofList, hread]

/-- Edits with texts of controls, quotes, backslashes, separators and characters beyond the first
plane, and with a slot that is left empty. -/
def oddEdits : List Edit :=
  [.addLanguage "a\"\\\x00\r\n\u2028", .addPos "" "\x7f", .addLanguage "gone", .removeLanguage 1,
    .addWord 0 "tafa" "\t😀" (-7) "\x85" [⟨0, 12⟩], .addCategory 0 "\u2029" (.letters "ab"),
    .addRule 0 .surface "f" "\\\\"]

theorem countable_oddEdits :
    ((Session.ofProject empty .default).edited oddEdits).project.Countable := by
  decide

theorem edited_load_json_odd :
    ((Session.ofProject empty .default).edited oddEdits).project.Countable ∧
      Format.ofPath "isles.json" = .json ∧
      Files.empty.hasDirectory (Path.parent "isles.json") = true ∧
      ∃ stored,
        ((Session.ofProject empty .default).edited oddEdits).project.store (some 0) .empty
          "isles.json" = (stored, .ok ()) ∧
        load stored "isles.json" =
          .ok ((Session.ofProject empty .default).edited oddEdits).project :=
  ⟨countable_oddEdits, rfl, rfl,
    edited_load_json .default oddEdits (some 0) .empty "isles.json" countable_oddEdits rfl rfl⟩

/-! ## YAML -/

/-- No text of a project would be written with a next-line character that stands for itself; such
a character is read as a line feed. -/
def KeepsBreaks (p : Project) : Prop := ∀ d ∈ p.toData.leaves, Yaml.KeepsBreaks d

instance (p : Project) : Decidable p.KeepsBreaks :=
  inferInstanceAs (Decidable (∀ d ∈ p.toData.leaves, Yaml.KeepsBreaks d))

theorem save_yaml {p : Project} (h : p.Storable (·.isText)) (hn : p.Countable)
    (hb : p.KeepsBreaks) (indent : Option Nat) :
    ∃ s, p.save .yaml indent = .of s ∧ '\r' ∉ s ∧ Yaml.read (String.ofList s) = .ok p.toData := by
  obtain ⟨clean, read⟩ := Yaml.read_write h.plain hb hn (by decide)
  have writable : p.toData.isWritable = true := Datum.isWritable_of_leaves hn
  exact ⟨_, if_pos writable, clean, by rwa [String.ofList_toList]⟩

/-- A project that was edited from nothing comes back from the YAML file that it was stored in, if
no next-line character stands for itself in the file. -/
theorem edited_load_yaml (c : Config) (edits : List Edit) (indent : Option Nat) (files : Files)
    (path : String) (hn : ((Session.ofProject empty c).edited edits).project.Countable)
    (hb : ((Session.ofProject empty c).edited edits).project.KeepsBreaks)
    (hf : Format.ofPath path = .yaml) (hd : files.hasDirectory (Path.parent path) = true) :
    ∃ stored,
      ((Session.ofProject empty c).edited edits).project.store indent files path =
        (stored, .ok ()) ∧
      load stored path = .ok ((Session.ofProject empty c).edited edits).project := by
  have storable := storable_edited c edits
  obtain ⟨s, hs, clean, hread⟩ := save_yaml storable hn hb indent
  refine load_stored storable.ofData_toData (hf ▸ hs) clean ?_ hd
  simp only [readText, hf, hread]

/-- Edits with texts that look like other values or like signs, with breaks of every kind, and with
a next-line character that only an escape can show as there is a space beside it. -/
def signEdits : List Edit :=
  [.addLanguage "010", .addLanguage "gone", .removeLanguage 1, .addPos "yes" "2001-01-01",
    .addPos "- a: b # c" "\u2028\u2029\n\x00", .addWord 0 "" " \x85" 12 "'\"?\t😀" [⟨0, -1⟩],
    .addCategory 0 "\n" (.letters "~:"), .addCategory 0 ":" (.graphemes ["null", "\r\n"]),
    .addRule 0 .surface "^$" "--- |"]

theorem countable_signEdits :
    ((Session.ofProject empty .default).edited signEdits).project.Countable := by
  decide

theorem keepsBreaks_signEdits :
    ((Session.ofProject empty .default).edited signEdits).project.KeepsBreaks := by
  decide

theorem edited_load_yaml_signs :
    ((Session.ofProject empty .default).edited signEdits).project.Countable ∧
      ((Session.ofProject empty .default).edited signEdits).project.KeepsBreaks ∧
      Format.ofPath "isles.YML" = .yaml ∧
      Files.empty.hasDirectory (Path.parent "isles.YML") = true ∧
      ∃ stored,
        ((Session.ofProject empty .default).edited signEdits).project.store (some 2) .empty
          "isles.YML" = (stored, .ok ()) ∧
        load stored "isles.YML" =
          .ok ((Session.ofProject empty .default).edited signEdits).project :=
  ⟨countable_signEdits, keepsBreaks_signEdits, rfl, rfl,
    edited_load_yaml .default signEdits (some 2) .empty "isles.YML" countable_signEdits
      keepsBreaks_signEdits rfl rfl⟩

/-- A next-line character between two letters stands for itself in the file. -/
def nextLine : Project :=
  ((Session.ofProject empty .default).edited [.addPos "noun" "a\x85b"]).project

/-- A project with such a character is stored, and another one is loaded. -/
theorem load_next_line :
    nextLine.Countable ∧ ¬ nextLine.KeepsBreaks ∧ ∃ stored q,
      nextLine.store (some 2) .empty "isles.yaml" = (stored, .ok ()) ∧
        load stored "isles.yaml" = .ok q ∧ q.toData ≠ nextLine.toData := by
  have written : (nextLine.store (some 2) .empty "isles.yaml").2 = .ok () := by rfl
  have loaded : ((load (nextLine.store (some 2) .empty "isles.yaml").1 "isles.yaml").toOption.map
      fun q => q.toData.same nextLine.toData) = some false := by
    decide +kernel
  obtain ⟨q, found, differs⟩ := Option.map_eq_some_iff.mp loaded
  refine ⟨by decide, by decide, _, q, Prod.ext rfl written, toOption_eq_some_iff.mp found, ?_⟩
  intro equal
  have itself : nextLine.toData.same nextLine.toData = true := by decide
  rw [equal, itself] at differs
  cases differs

end Neogrammar.Project
