import Neogrammar.Substitution

/-!
# Words

A word is entered with a mnemonic form, a gloss, a part of speech and a note; its surface and
phonetic forms are computed from the mnemonic. Coordinates name the words that it descends from.
-/
namespace Neogrammar

/-- The place of a word: its language and its index there. -/
structure Coordinate where
  lang : Int
  word : Int
  deriving DecidableEq, Repr

namespace Coordinate

def text (c : Coordinate) : String := Text.intText c.lang ++ ":" ++ Text.intText c.word

def quoted (c : Coordinate) : String :=
  "Coordinate(lang=" ++ Text.intText c.lang ++ ", word=" ++ Text.intText c.word ++ ")"

/-- Split a text at its first colon. -/
def splitColon (s : List Char) : Option (List Char × List Char) :=
  if s.contains ':' then some (s.takeWhile (· != ':'), (s.dropWhile (· != ':')).drop 1) else none

/-- Read a coordinate: two whole numbers around the first colon. -/
def ofText (s : String) : Except Error Coordinate :=
  match splitColon s.toList with
  | none => .error (.coordinate s)
  | some (lang, word) =>
    match Text.readInt (String.ofList lang), Text.readInt (String.ofList word) with
    | .ok lang, .ok word => .ok ⟨lang, word⟩
    | _, _ => .error (.coordinate s)

end Coordinate

/-- A part of speech, shared by all languages of a project. -/
structure PartOfSpeech where
  name : Datum
  abbr : Datum
  deriving Repr

namespace PartOfSpeech

def quoted (p : PartOfSpeech) : String :=
  "PartOfSpeech(name=" ++ p.name.quoted ++ ", abbr=" ++ p.abbr.quoted ++ ")"

def same (p q : PartOfSpeech) : Bool := p.name.same q.name && p.abbr.same q.abbr

end PartOfSpeech

structure Word where
  mnemonic : Datum
  gloss : Datum
  pos : Int
  note : Datum
  ancestors : List Coordinate
  surface : Datum
  phonetic : Datum
  deriving Repr

namespace Word

/-- A word as it is entered, its computed forms still empty. -/
def entered (mnemonic gloss : Datum) (pos : Int) (note : Datum) (ancestors : List Coordinate) :
    Word :=
  ⟨mnemonic, gloss, pos, note, ancestors, "", ""⟩

/-- A word that descends from exactly one other. -/
def isInherited (w : Word) : Bool := w.ancestors.length == 1

/-- Compute the surface form. -/
def morphSurface (w : Word) (toSurface : Pipeline) : Except Error Word :=
  (toSurface.run w.mnemonic).map fun surface => { w with surface }

/-- Compute the phonetic form. -/
def morphPhonetic (w : Word) (toPhonetic : Pipeline) : Except Error Word :=
  (toPhonetic.run w.mnemonic).map fun phonetic => { w with phonetic }

/-- Compute both forms. -/
def morph (w : Word) (toSurface toPhonetic : Pipeline) : Except Error Word := do
  let w ← w.morphSurface toSurface
  w.morphPhonetic toPhonetic

/-- What a word is after computing both forms in place, the surface first, also where one of them
fails. -/
def morphed (w : Word) (toSurface toPhonetic : Pipeline) : Word × Except Error Unit :=
  match w.morphSurface toSurface with
  | .error e => (w, .error e)
  | .ok w =>
    match w.morphPhonetic toPhonetic with
    | .error e => (w, .error e)
    | .ok w => (w, .ok ())

/-- Take the forms of a derived word and keep what was entered besides. -/
def fuse (w derived : Word) : Word :=
  { w with surface := derived.surface, phonetic := derived.phonetic, mnemonic := derived.mnemonic }

def same (v w : Word) : Bool :=
  v.mnemonic.same w.mnemonic && v.gloss.same w.gloss && v.pos == w.pos && v.note.same w.note
    && v.ancestors == w.ancestors && v.surface.same w.surface && v.phonetic.same w.phonetic

def quoted (w : Word) : String :=
  "Word(mnemonic=" ++ w.mnemonic.quoted ++ ", gloss=" ++ w.gloss.quoted ++ ", pos="
    ++ Text.intText w.pos ++ ", note=" ++ w.note.quoted ++ ", ancestors=["
    ++ ", ".intercalate (w.ancestors.map Coordinate.quoted) ++ "], surface=" ++ w.surface.quoted
    ++ ", phonetic=" ++ w.phonetic.quoted ++ ")"

end Word
end Neogrammar
