import Neogrammar.Project.Session
import Neogrammar.Proofs.Project.Kept
import Neogrammar.Proofs.Project.ReadBack

/-!
# Sequences of edits

An edit is an operation of the editor with arguments of the kinds that it asks for. A session keeps
its project storable, and the one that an open block would restore with it, so a project that was
read from plain data is kept by plain data however it is edited.
-/
namespace Neogrammar

/-- The content of a category: the characters of a text, or graphemes one by one. -/
inductive Content where
  | letters (s : String)
  | graphemes (texts : List String)

def Content.datum : Content → Datum
  | letters s => .text s
  | graphemes texts => .list (texts.map .text)

/-- What an editor can be asked to do to its project. -/
inductive Edit where
  | addLanguage (name : String)
  | renameLanguage (lang : Int) (name : String)
  | setAncestor (lang : Int) (ancestor : Option Int)
  | removeLanguage (lang : Int)
  | addPos (name abbr : String)
  | alterPos (index : Int) (name abbr : String)
  | removePos (index : Int)
  | addWord (lang : Int) (mnemonic gloss : String) (pos : Int) (note : String)
      (ancestors : List Coordinate)
  /-- A part that is not given stays. -/
  | alterWord (lang index : Int) (mnemonic gloss : Option String) (pos : Option Int)
      (note : Option String) (ancestors : Option (List Coordinate))
  | removeWord (lang index : Int)
  | morphAll (lang : Option Int)
  | addRule (lang : Int) (kind : RuleKind) (pattern replacement : String)
  | alterRule (lang : Int) (kind : RuleKind) (index : Int) (pattern replacement : String)
  | insertRule (lang : Int) (kind : RuleKind) (index : Int) (pattern replacement : String)
  | removeRule (lang : Int) (kind : RuleKind) (index : Int)
  | addCategory (lang : Int) (key : String) (content : Content)
  | removeCategory (lang : Int) (key : String)
  | addSoundChange (lang : Int) (target replacement environment : String)
  | alterSoundChange (lang index : Int) (target replacement environment : String)
  | insertSoundChange (lang index : Int) (target replacement environment : String)
  | removeSoundChange (lang index : Int)
  | derive (lang ancestor : Int)
  | openBlock
  | closeBlock
  /-- An error leaves the innermost block. -/
  | abortBlock

namespace Session

/-- Take the project that an operation gives; one that fails leaves the session alone. -/
def attempt (s : Session) : Except Error Project → Session
  | .ok p => s.withProject p
  | .error _ => s

end Session

/-- The session after an edit, whether it succeeds or fails. -/
def Edit.apply (s : Session) : Edit → Session
  | addLanguage name => s.withProject (s.project.addLanguage name).2
  | renameLanguage lang name => s.attempt (s.project.renameLanguage lang name)
  | setAncestor lang ancestor => s.attempt (s.project.setAncestor lang ancestor)
  | removeLanguage lang => s.attempt (s.project.removeLanguage lang)
  | addPos name abbr => s.withProject (s.project.addPos name abbr).2
  | alterPos index name abbr => s.attempt (s.project.alterPos index name abbr)
  | removePos index => s.attempt (s.project.removePos index)
  | addWord lang mnemonic gloss pos note ancestors =>
    s.attempt ((s.project.addWord s.config lang (.entered mnemonic gloss pos note ancestors)).map
      (·.2))
  | alterWord lang index mnemonic gloss pos note ancestors =>
    s.attempt ((s.project.alterWord s.config lang index
      ⟨mnemonic.map .text, gloss.map .text, pos, note.map .text, ancestors⟩).map (·.2))
  | removeWord lang index => s.attempt (s.project.removeWord lang index)
  | morphAll lang => s.withProject (s.project.morphAll s.config lang).1
  | addRule lang kind pattern replacement =>
    s.attempt ((s.project.addRule lang kind pattern replacement).map (·.2))
  | alterRule lang kind index pattern replacement =>
    s.attempt (s.project.alterRule lang kind index pattern replacement)
  | insertRule lang kind index pattern replacement =>
    s.attempt (s.project.insertRule lang kind index pattern replacement)
  | removeRule lang kind index => s.attempt (s.project.removeRule lang kind index)
  | addCategory lang key content => s.attempt (s.project.addCategory lang key content.datum)
  | removeCategory lang key => s.attempt (s.project.removeCategory lang key)
  | addSoundChange lang target replacement environment =>
    s.attempt ((s.project.addSoundChange lang target replacement environment).map (·.2))
  | alterSoundChange lang index target replacement environment =>
    s.attempt (s.project.alterSoundChange lang index target replacement environment)
  | insertSoundChange lang index target replacement environment =>
    s.attempt (s.project.insertSoundChange lang index target replacement environment)
  | removeSoundChange lang index => s.attempt (s.project.removeSoundChange lang index)
  | derive lang ancestor => s.withProject (s.project.derive s.config lang ancestor).1
  | openBlock => s.openBlock
  | closeBlock => s.closeBlock
  | abortBlock => s.abortBlock

namespace Session

/-- The session after edits in order. -/
def edited (s : Session) (edits : List Edit) : Session := edits.foldl Edit.apply s

/-- The project under edit is storable, and so is the one that the outermost block began with. -/
structure Storable (G : Datum → Prop) (s : Session) : Prop where
  project : s.project.Storable G
  snapshot : ∀ p, s.snapshot = some p → p.Storable G

variable {G : Datum → Prop} {s : Session}

theorem storable_ofProject {p : Project} (hp : p.Storable G) (c : Config) :
    (ofProject p c).Storable G :=
  ⟨hp, by simp [ofProject]⟩

theorem Storable.withProject {p : Project} (hs : s.Storable G) (hp : p.Storable G) :
    (s.withProject p).Storable G :=
  ⟨hp, hs.snapshot⟩

theorem Storable.attempt {result : Except Error Project} (hs : s.Storable G)
    (keeps : ∀ p, result = .ok p → p.Storable G) : (s.attempt result).Storable G := by
  cases result with
  | error e => exact hs
  | ok p => exact hs.withProject (keeps p rfl)

/-- An attempt at an operation that has a result besides the project. -/
theorem Storable.attempt_map {α : Type} {result : Except Error (α × Project)} (hs : s.Storable G)
    (keeps : ∀ a p, result = .ok (a, p) → p.Storable G) :
    (s.attempt (result.map (·.2))).Storable G := by
  refine hs.attempt fun p hp => ?_
  obtain ⟨⟨a, q⟩, hq, rfl⟩ := map_eq_ok_iff.mp hp
  exact keeps a q hq

theorem Storable.openBlock (hs : s.Storable G) : s.openBlock.Storable G := by
  unfold Session.openBlock
  split
  · exact ⟨hs.project, fun p hp => Option.some.inj hp ▸ hs.project⟩
  · exact ⟨hs.project, hs.snapshot⟩

theorem Storable.closeBlock (hs : s.Storable G) : s.closeBlock.Storable G := by
  unfold Session.closeBlock
  split
  · exact ⟨hs.project, by simp⟩
  · exact ⟨hs.project, hs.snapshot⟩

theorem Storable.abortBlock (hs : s.Storable G) : s.abortBlock.Storable G := by
  unfold Session.abortBlock
  split
  · exact ⟨hs.snapshot _ ‹_›, by simp⟩
  · exact ⟨hs.project, hs.snapshot⟩

end Session

theorem Content.elements_text {content : Content} {graphemes : List Datum}
    (h : content.datum.elements? = some graphemes) : ∀ g ∈ graphemes, ∃ s, g = .text s := by
  cases content
  all_goals
    cases h
    intro g hg
    obtain ⟨s, -, rfl⟩ := List.mem_map.mp hg
    exact ⟨_, rfl⟩

section

variable {G : Datum → Prop} {s : Session}

/-- An edit keeps a session storable. -/
theorem Edit.storable_apply (texts : ∀ t, G (.text t)) (hs : s.Storable G) (e : Edit) :
    (e.apply s).Storable G := by
  have hp := hs.project
  cases e with
  | addLanguage name => exact hs.withProject (hp.addLanguage rfl)
  | renameLanguage lang name => exact hs.attempt fun _ => hp.renameLanguage rfl
  | setAncestor lang ancestor => exact hs.attempt fun _ => hp.setAncestor
  | removeLanguage lang => exact hs.attempt fun _ => hp.removeLanguage
  | addPos name abbr => exact hs.withProject (hp.addPos rfl rfl)
  | alterPos index name abbr => exact hs.attempt fun _ => hp.alterPos rfl rfl
  | removePos index => exact hs.attempt fun _ => hp.removePos
  | addWord lang mnemonic gloss pos note ancestors =>
    exact hs.attempt_map fun _ _ => hp.addWord (Word.storable_entered rfl rfl rfl)
  | alterWord lang index mnemonic gloss pos note ancestors =>
    have given (o : Option String) (d : Datum) (h : o.map Datum.text = some d) :
        d.isText = true := by
      obtain ⟨t, -, rfl⟩ := Option.map_eq_some_iff.mp h
      rfl
    exact hs.attempt_map fun _ _ => hp.alterWord ⟨given mnemonic, given gloss, given note⟩
  | removeWord lang index => exact hs.attempt fun _ => hp.removeWord
  | morphAll lang => exact hs.withProject hp.morphAll
  | addRule lang kind pattern replacement => exact hs.attempt_map fun _ _ => hp.addRule
  | alterRule lang kind index pattern replacement => exact hs.attempt fun _ => hp.alterRule
  | insertRule lang kind index pattern replacement => exact hs.attempt fun _ => hp.insertRule
  | removeRule lang kind index => exact hs.attempt fun _ => hp.removeRule
  | addCategory lang key content =>
    refine hs.attempt fun q hq => hp.addCategory hq fun graphemes hg g hmem _ => ?_
    obtain ⟨t, rfl⟩ := Content.elements_text hg g hmem
    exact texts t
  | removeCategory lang key => exact hs.attempt fun _ => hp.removeCategory
  | addSoundChange lang target replacement environment =>
    exact hs.attempt_map fun _ _ => hp.addSoundChange rfl rfl
  | alterSoundChange lang index target replacement environment =>
    exact hs.attempt fun _ => hp.alterSoundChange rfl rfl
  | insertSoundChange lang index target replacement environment =>
    exact hs.attempt fun _ => hp.insertSoundChange rfl rfl
  | removeSoundChange lang index => exact hs.attempt fun _ => hp.removeSoundChange
  | derive lang ancestor => exact hs.withProject hp.derive
  | openBlock => exact hs.openBlock
  | closeBlock => exact hs.closeBlock
  | abortBlock => exact hs.abortBlock

/-- Edits in order keep a session storable. -/
theorem Session.Storable.edited (texts : ∀ t, G (.text t)) (hs : s.Storable G)
    (edits : List Edit) : (s.edited edits).Storable G := by
  induction edits generalizing s with
  | nil => exact hs
  | cons e edits ih => exact ih (Edit.storable_apply texts hs e)

end

namespace Project

/-- Whatever is read from plain data and edited is kept by plain data: no slot, word, rule or
category is lost or changed. -/
theorem edited_read_back {d : Datum} {p : Project} (h : ofData d = .ok p) (c : Config)
    (edits : List Edit) :
    ofData ((Session.ofProject p c).edited edits).project.toData =
      .ok ((Session.ofProject p c).edited edits).project :=
  have storable := Session.storable_ofProject (storable_of_ofData h) c
  (storable.edited (fun _ => trivial) edits).project.ofData_toData

/-- Plain data with an empty slot, a number for a name, a numeral for a part of speech, nothing for
a gloss, and the graphemes of a category in one text. -/
def looseData : Datum :=
  .record [("languages", .list [.null,
    .record [("name", .int 7),
      ("vocab", .list [.record [("mnemonic", "tafa"), ("pos", "3"), ("gloss", .null)]]),
      ("surface_rules", .list [.record [("pattern", "f"), ("replacement", "h")]]),
      ("sound_changes", .record [
        ("categories", .record [("V", "ae"), ("W", .list ["i", "u"])]),
        ("rules", .list [.record [("target", "V"), ("replacement", "W"),
          ("environment", "_f")]])])]])]

/-- The project that is read from it. -/
def loose : Project :=
  ⟨⟨[none, some ⟨"7", none, ⟨[some ⟨"tafa", "None", 3, "", [], "", ""⟩]⟩, [⟨"f", "h"⟩], [],
    ⟨⟨[('V', ["a", "e"]), ('W', ["i", "u"])]⟩, [⟨"V", "W", "_f"⟩]⟩⟩]⟩, .empty⟩

/-- Edits that leave a sound change without its target and a word without its ancestor. -/
def looseEdits : List Edit :=
  [.addLanguage "Ayi", .derive 2 1, .openBlock, .removeCategory 1 "V", .removeWord 1 0, .closeBlock]

theorem ofData_looseData : ofData looseData = .ok loose := rfl

theorem edited_read_back_loose :
    ofData looseData = .ok loose ∧
      ofData ((Session.ofProject loose .default).edited looseEdits).project.toData =
        .ok ((Session.ofProject loose .default).edited looseEdits).project :=
  ⟨ofData_looseData, edited_read_back ofData_looseData .default looseEdits⟩

end Project
end Neogrammar
