import Neogrammar.Project.Basic

/-!
# Projects as plain data

A project is written as maps and lists of plain values; an empty slot is null. Reading turns every
text field into a text and every index into a whole number. Plain rules must compile when they are
read; sound changes are taken as they are.
-/
namespace Neogrammar

/-- The version of the form. -/
def dataVersion : String := "1"

namespace Coordinate

def toData (c : Coordinate) : Datum := .record [("lang", .int c.lang), ("word", .int c.word)]

end Coordinate

namespace Word

def toData (w : Word) : Datum :=
  .record [("surface", w.surface), ("gloss", w.gloss), ("pos", .int w.pos),
    ("phonetic", w.phonetic), ("mnemonic", w.mnemonic), ("note", w.note),
    ("ancestors", .list (w.ancestors.map Coordinate.toData))]

end Word

namespace Replace

def toData (r : Replace) : Datum :=
  .record [("pattern", .text r.pattern), ("replacement", .text r.replacement)]

end Replace

namespace SoundChange

def toData (s : SoundChange) : Datum :=
  .record [("target", s.target), ("replacement", s.replacement),
    ("environment", .text s.environment)]

end SoundChange

namespace Categories

def toData (t : Categories) : Datum :=
  .map (t.entries.map fun e => (.text e.1.toString, .list e.2))

end Categories

namespace SoundChanges

def toData (c : SoundChanges) : Datum :=
  .record [("categories", c.categories.toData), ("rules", .list (c.rules.map SoundChange.toData))]

end SoundChanges

/-- Cells as a list, an empty one as null. -/
def Slots.toData {α : Type} (item : α → Datum) (s : Slots α) : Datum :=
  .list (s.cells.map fun cell => (cell.map item).getD .null)

namespace Language

def ancestorData (l : Language) : Datum :=
  match l.ancestor with
  | none => .null
  | some a => .int a

def toData (l : Language) : Datum :=
  .record [("name", l.name), ("ancestor", l.ancestorData), ("vocab", l.vocab.toData Word.toData),
    ("surface_rules", .list (l.surfaceRules.map Replace.toData)),
    ("phonetic_rules", .list (l.phoneticRules.map Replace.toData)),
    ("sound_changes", l.soundChanges.toData)]

end Language

namespace PartOfSpeech

def toData (p : PartOfSpeech) : Datum := .record [("name", p.name), ("abbr", p.abbr)]

end PartOfSpeech

namespace Project

def toData (p : Project) : Datum :=
  .record [("version", .text dataVersion), ("languages", p.languages.toData Language.toData),
    ("pos", p.partsOfSpeech.toData PartOfSpeech.toData)]

end Project

/-! ## Reading -/

namespace Datum

/-- The value of a key that must be there, in what must be a map. -/
def need (d : Datum) (key : String) : Except Error Datum :=
  match d with
  | .map es =>
    match field? key es with
    | some v => .ok v
    | none => .error (.missingKey (.text key))
  | _ => .error .wrongKind

/-- The value of a key, if it is there, in what must be a map. -/
def get? (d : Datum) (key : String) : Except Error (Option Datum) :=
  match d with
  | .map es => .ok (field? key es)
  | _ => .error .wrongKind

/-- A text that must be there; any value has one that can be written. -/
def needText (d : Datum) (key : String) : Except Error String := d.need key >>= written

/-- A text that may be left out. -/
def textOr (d : Datum) (key fallback : String) : Except Error String := do
  match ← d.get? key with
  | none => pure fallback
  | some v => v.written

/-- The elements of a value that may be left out or empty. -/
def elementsAt (d : Datum) (key : String) : Except Error (List Datum) := do
  match ← d.get? key with
  | none => pure []
  | some v =>
    if !v.truthy then pure []
    else
      match v.elements? with
      | some items => pure items
      | none => .error .wrongKind

/-- A map that may be left out or empty. -/
def mapAt (d : Datum) (key : String) : Except Error Datum := do
  match ← d.get? key with
  | none => pure (.map [])
  | some v => if v.truthy then pure v else pure (.map [])

end Datum

def Coordinate.ofData (d : Datum) : Except Error Coordinate := do
  let lang ← d.need "lang"
  let lang ← lang.toWhole
  let word ← d.need "word"
  let word ← word.toWhole
  pure ⟨lang, word⟩

def Word.ofData (d : Datum) : Except Error Word := do
  let mnemonic ← d.needText "mnemonic"
  let gloss ← d.textOr "gloss" ""
  let pos ← d.get? "pos"
  let pos ← (pos.getD (.int 0)).toWhole
  let note ← d.textOr "note" ""
  let ancestors ← d.elementsAt "ancestors"
  let ancestors ← ancestors.mapM Coordinate.ofData
  let surface ← d.textOr "surface" ""
  let phonetic ← d.textOr "phonetic" ""
  pure ⟨mnemonic, gloss, pos, note, ancestors, surface, phonetic⟩

/-- A plain rule, which must compile. -/
def Replace.ofData (d : Datum) : Except Error Replace := do
  let pattern ← d.needText "pattern"
  let replacement ← d.needText "replacement"
  let rule : Replace := ⟨pattern, replacement⟩
  let _ ← rule.compile .default
  pure rule

def SoundChange.ofData (d : Datum) : Except Error SoundChange := do
  let target ← d.needText "target"
  let replacement ← d.needText "replacement"
  let environment ← d.needText "environment"
  pure ⟨target, replacement, environment⟩

def Categories.ofData (d : Datum) : Except Error Categories :=
  match d with
  | .map es => Categories.ofEntries es .empty
  | _ => .error .wrongKind

def SoundChanges.ofData (d : Datum) : Except Error SoundChanges := do
  let categories ← d.mapAt "categories"
  let categories ← Categories.ofData categories
  let rules ← d.elementsAt "rules"
  let rules ← rules.mapM SoundChange.ofData
  pure ⟨categories, rules⟩

/-- A slot: null is an empty one. -/
def Slots.ofItems {α : Type} (item : Datum → Except Error α) (items : List Datum) :
    Except Error (Slots α) := do
  let cells ← items.mapM fun d => if d.isNull then pure none else (item d).map some
  pure ⟨cells⟩

def Language.ofData (d : Datum) : Except Error Language := do
  let soundChanges ← d.mapAt "sound_changes"
  let soundChanges ← SoundChanges.ofData soundChanges
  let ancestor ← d.get? "ancestor"
  let name ← d.needText "name"
  let ancestor ←
    match ancestor with
    | none | some .null => pure none
    | some a => a.toWhole.map some
  let vocab ← d.elementsAt "vocab"
  let vocab ← Slots.ofItems Word.ofData vocab
  let surfaceRules ← d.elementsAt "surface_rules"
  let surfaceRules ← surfaceRules.mapM Replace.ofData
  let phoneticRules ← d.elementsAt "phonetic_rules"
  let phoneticRules ← phoneticRules.mapM Replace.ofData
  pure ⟨name, ancestor, vocab, surfaceRules, phoneticRules, soundChanges⟩

def PartOfSpeech.ofData (d : Datum) : Except Error PartOfSpeech := do
  let name ← d.needText "name"
  let abbr ← d.needText "abbr"
  pure ⟨name, abbr⟩

/-- Why plain data is no project. -/
inductive ImportError where
  | notAMap
  | version (text : String)
  /-- A value that is missing or does not fit. -/
  | malformed (cause : Error)
  /-- A rule or category that editing would refuse. -/
  | invalidRule (cause : Error)
  /-- A pattern or numeral that cannot be dealt with at all. -/
  | other (cause : Error)
  deriving Repr

namespace ImportError

/-- The notation of a cause. -/
def causeText : Error → String
  | .wrongKind => "BadType"
  | .missingKey key => "KeyError(" ++ key.quoted ++ ")"
  | e => "ValueError(" ++ Text.quoted e.message ++ ")"

def message : ImportError → String
  | notAMap => "Project root must be a mapping (dictionary)"
  | version text => "Unsupported project format version: " ++ text
  | malformed cause => "Malformed project data: " ++ causeText cause
  | invalidRule cause => "Invalid rule in project data: " ++ cause.message
  | other cause => cause.message

/-- The import error for a cause. -/
def ofError (e : Error) : ImportError :=
  if e.isEditing then .invalidRule e
  else
    match e with
    | .repetitionTooLarge | .codeTooLarge | .unknownGroup _ | .noGrapheme
    | .number .infinite => .other e
    | e => .malformed e

end ImportError

namespace Project

def ofItems (d : Datum) : Except Error Project := do
  let languages ← d.elementsAt "languages"
  let languages ← Slots.ofItems Language.ofData languages
  let pos ← d.elementsAt "pos"
  let partsOfSpeech ← Slots.ofItems PartOfSpeech.ofData pos
  pure ⟨languages, partsOfSpeech⟩

/-- Read a project. -/
def ofData (d : Datum) : Except ImportError Project :=
  match d with
  | .map es =>
    match (Datum.field? "version" es).elim (.ok dataVersion) Datum.written with
    | .error e => .error (.other e)
    | .ok version =>
      if version ≠ dataVersion then .error (.version version)
      else
        match ofItems d with
        | .ok p => .ok p
        | .error e => .error (.ofError e)
  | _ => .error .notAMap

end Project
end Neogrammar
