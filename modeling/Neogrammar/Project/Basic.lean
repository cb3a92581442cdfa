import Neogrammar.Descent

/-!
# Projects

A project holds languages and parts of speech in slots. Most operations either fail and leave the
project alone or give the project after; `morphAll` and `derive` say in either case what the project
is afterwards.
-/
namespace Neogrammar

/-- How the engine behaves: the limits of its runs, whether a failed derivation leaves no trace,
and the indentation of written files, none for everything on one line. -/
structure Config where
  limits : Limits
  transactional : Bool
  indent : Option Nat
  deriving DecidableEq, Repr

def Config.default : Config := ⟨.default, true, some 2⟩

structure Project where
  languages : Slots Language
  partsOfSpeech : Slots PartOfSpeech
  deriving Repr

/-- What a word form would become, without storing it. -/
structure Preview where
  surface : Datum
  phonetic : Datum
  evolved : Datum
  deriving Repr

/-- Changes to a word; a part that is not given stays. -/
structure WordChange where
  mnemonic : Option Datum
  gloss : Option Datum
  pos : Option Int
  note : Option Datum
  ancestors : Option (List Coordinate)
  deriving Repr

def WordChange.apply (c : WordChange) (w : Word) : Word :=
  .entered (c.mnemonic.getD w.mnemonic) (c.gloss.getD w.gloss) (c.pos.getD w.pos)
    (c.note.getD w.note) (c.ancestors.getD w.ancestors)

namespace Project

def empty : Project := ⟨.empty, .empty⟩

/-! ## Languages -/

def language (p : Project) (lang : Int) : Except Error Language := p.languages.get (.int lang)

/-- Overwrite the slot of a language. -/
def withLanguage (p : Project) (lang : Int) (l : Language) : Project :=
  { p with languages := p.languages.put lang.toNat (some l) }

/-- Change a language; the result of the change is passed on. -/
def modifyLanguage {α : Type} (p : Project) (lang : Int)
    (f : Language → Except Error (α × Language)) : Except Error (α × Project) := do
  let l ← p.language lang
  let (a, l) ← f l
  pure (a, p.withLanguage lang l)

/-- Change a language where there is nothing to pass on. -/
def updateLanguage (p : Project) (lang : Int) (f : Language → Except Error Language) :
    Except Error Project := do
  let l ← p.language lang
  let l ← f l
  pure (p.withLanguage lang l)

def addLanguage (p : Project) (name : Datum) : Nat × Project :=
  (p.languages.size, { p with languages := p.languages.push (some (.named name)) })

def renameLanguage (p : Project) (lang : Int) (name : Datum) : Except Error Project :=
  p.updateLanguage lang fun l => .ok { l with name }

/-- Point a language at its ancestor without deriving. -/
def setAncestor (p : Project) (lang : Int) (ancestor : Option Int) : Except Error Project :=
  p.updateLanguage lang fun l => do
    match ancestor with
    | none => pure { l with ancestor }
    | some a =>
      if a = lang then .error (.selfAncestor lang)
      else do
        let _ ← p.language a
        pure { l with ancestor }

def removeLanguage (p : Project) (lang : Int) : Except Error Project := do
  let (_, languages) ← p.languages.remove (.int lang)
  pure { p with languages }

def findLanguage (p : Project) (name : Datum) : Option Nat :=
  p.languages.findIndex? fun l => l.name.same name

/-- Ancestors from `current` on, up to a root, an index that is not live, or an index already
seen. Every step sees a new live index, so their count bounds the walk. -/
def walk (p : Project) : Nat → List Int → Option Int → List Int
  | 0, _, _ => []
  | _ + 1, _, none => []
  | fuel + 1, seen, some a =>
    if seen.contains a then []
    else if p.languages.isLive a then
      a :: p.walk fuel (a :: seen) ((p.languages.find? a.toNat).bind (·.ancestor))
    else [a]

/-- The ancestors of a language from its parent upwards. -/
def ancestry (p : Project) (lang : Int) : Except Error (List Int) := do
  let l ← p.language lang
  pure (p.walk (p.languages.size + 1) [lang] l.ancestor)

/-- Whether walking up comes to an index already seen. -/
def loops (p : Project) : Nat → List Int → Option Int → Bool
  | 0, _, _ => false
  | _ + 1, _, none => false
  | fuel + 1, seen, some a =>
    if seen.contains a then true
    else if p.languages.isLive a then
      p.loops fuel (a :: seen) ((p.languages.find? a.toNat).bind (·.ancestor))
    else false

/-- Whether walking up from a language comes to an index again. -/
def hasAncestryCycle (p : Project) (lang : Int) : Except Error Bool := do
  let l ← p.language lang
  pure (p.loops (p.languages.size + 1) [lang] l.ancestor)

/-! ## Parts of speech -/

def addPos (p : Project) (name abbr : Datum) : Nat × Project :=
  (p.partsOfSpeech.size, { p with partsOfSpeech := p.partsOfSpeech.push (some ⟨name, abbr⟩) })

def alterPos (p : Project) (index name abbr : Datum) : Except Error Project := do
  let partsOfSpeech ← p.partsOfSpeech.set index (some ⟨name, abbr⟩)
  pure { p with partsOfSpeech }

def removePos (p : Project) (index : Datum) : Except Error Project := do
  let (_, partsOfSpeech) ← p.partsOfSpeech.remove index
  pure { p with partsOfSpeech }

def findPos (p : Project) (abbr : Datum) : Option Nat :=
  p.partsOfSpeech.findIndex? fun s => s.abbr.same abbr

/-! ## Words -/

def pipelines (p : Project) (c : Config) (lang : Int) : Except Error Pipelines := do
  let l ← p.language lang
  l.pipelines c.limits

/-- Add a word; the result is its index with the project after. -/
def addWord (p : Project) (c : Config) (lang : Int) (word : Word) : Except Error (Nat × Project) :=
  p.modifyLanguage lang fun l => do
    let ps ← l.pipelines c.limits
    let w ← word.morph ps.toSurface ps.toPhonetic
    pure (l.vocab.size, { l with vocab := l.vocab.push (some w) })

/-- Change a word and compute its forms anew; the result is the new word with the project after. -/
def alterWord (p : Project) (c : Config) (lang : Int) (index : Datum) (change : WordChange) :
    Except Error (Word × Project) :=
  p.modifyLanguage lang fun l => do
    let old ← l.vocab.get index
    let ps ← l.pipelines c.limits
    let w ← (change.apply old).morph ps.toSurface ps.toPhonetic
    let vocab ← l.vocab.set index (some w)
    pure (w, { l with vocab })

def removeWord (p : Project) (lang : Int) (index : Datum) : Except Error Project :=
  p.updateLanguage lang fun l => do
    let (_, vocab) ← l.vocab.remove index
    pure { l with vocab }

def word (p : Project) (lang : Int) (index : Datum) : Except Error Word := do
  let l ← p.language lang
  l.vocab.get index

/-- The word at a coordinate. -/
def resolve (p : Project) (c : Coordinate) : Except Error Word := p.word c.lang (.int c.word)

/-- Compute the forms of all words of one language, up to the first failure. -/
def morphLanguage (p : Project) (c : Config) (lang : Int) : Project × Except Error Nat :=
  match p.language lang with
  | .error e => (p, .error e)
  | .ok l =>
    match l.pipelines c.limits with
    | .error e => (p, .error e)
    | .ok ps =>
      let (l, result) := l.morphAll ps
      (p.withLanguage lang l, result)

/-- Compute the forms of all words of some languages, up to the first failure. The result is the
project after and the count of words. -/
def morphLanguages (c : Config) : Project → Nat → List Int → Project × Except Error Nat
  | p, count, [] => (p, .ok count)
  | p, count, lang :: rest =>
    match p.morphLanguage c lang with
    | (p, .error e) => (p, .error e)
    | (p, .ok n) => morphLanguages c p (count + n) rest

/-- Compute the forms of all words of one language, or of every live one. -/
def morphAll (p : Project) (c : Config) (lang : Option Int) : Project × Except Error Nat :=
  match lang with
  | some lang => morphLanguages c p 0 [lang]
  | none => morphLanguages c p 0 (p.languages.items.map fun e => (e.1 : Int))

def preview (p : Project) (c : Config) (lang : Int) (mnemonic : Datum) : Except Error Preview := do
  let ps ← p.pipelines c lang
  let surface ← ps.toSurface.run mnemonic
  let phonetic ← ps.toPhonetic.run mnemonic
  let evolved ← ps.soundChange.run mnemonic
  pure ⟨surface, phonetic, evolved⟩

/-! ## Rules -/

def addRule (p : Project) (lang : Int) (kind : RuleKind) (pattern replacement : Datum) :
    Except Error (Nat × Project) :=
  p.modifyLanguage lang fun l => l.addRule kind pattern replacement

def alterRule (p : Project) (lang : Int) (kind : RuleKind) (index pattern replacement : Datum) :
    Except Error Project :=
  p.updateLanguage lang fun l => l.alterRule kind index pattern replacement

def insertRule (p : Project) (lang : Int) (kind : RuleKind) (index pattern replacement : Datum) :
    Except Error Project :=
  p.updateLanguage lang fun l => l.insertRule kind index pattern replacement

def removeRule (p : Project) (lang : Int) (kind : RuleKind) (index : Datum) :
    Except Error Project :=
  p.updateLanguage lang fun l => l.removeRule kind index

def rules (p : Project) (lang : Int) (kind : RuleKind) : Except Error (List Replace) := do
  let l ← p.language lang
  l.rules kind

/-! ## Categories and sound changes -/

def addCategory (p : Project) (lang : Int) (key content : Datum) : Except Error Project :=
  p.updateLanguage lang fun l => do
    let soundChanges ← l.soundChanges.addCategory key content
    pure { l with soundChanges }

def removeCategory (p : Project) (lang : Int) (key : Datum) : Except Error Project :=
  p.updateLanguage lang fun l => do
    let (_, soundChanges) ← l.soundChanges.removeCategory key
    pure { l with soundChanges }

/-- A sound change from three values; the environment must be a text. -/
def soundChange (target replacement environment : Datum) : Except Error SoundChange := do
  -- the sound change is written down, as errors name it, before it is looked at
  let _ ← target.written
  let _ ← replacement.written
  let _ ← environment.written
  match environment with
  | .text environment => .ok ⟨target, replacement, environment⟩
  | _ => .error .wrongKind

def addSoundChange (p : Project) (lang : Int) (target replacement environment : Datum) :
    Except Error (Nat × Project) :=
  p.modifyLanguage lang fun l => do
    let s ← soundChange target replacement environment
    let (index, soundChanges) ← l.soundChanges.addRule s
    pure (index, { l with soundChanges })

def alterSoundChange (p : Project) (lang : Int) (index target replacement environment : Datum) :
    Except Error Project :=
  p.updateLanguage lang fun l => do
    let s ← soundChange target replacement environment
    let (_, soundChanges) ← l.soundChanges.alterRule index s
    pure { l with soundChanges }

def insertSoundChange (p : Project) (lang : Int) (index target replacement environment : Datum) :
    Except Error Project :=
  p.updateLanguage lang fun l => do
    let s ← soundChange target replacement environment
    let soundChanges ← l.soundChanges.insertRule index s
    pure { l with soundChanges }

def removeSoundChange (p : Project) (lang : Int) (index : Datum) : Except Error Project :=
  p.updateLanguage lang fun l => do
    let (_, soundChanges) ← l.soundChanges.removeRule index
    pure { l with soundChanges }

/-! ## Derivation -/

/-- What a derivation needs: the language, its ancestor, and the pipelines of the language. -/
def derivation (p : Project) (c : Config) (lang ancestor : Int) :
    Except Error (Language × Language × Pipelines) :=
  if lang = ancestor then .error (.selfAncestor lang)
  else do
    let _ ← locate (.int lang) p.languages.size
    let _ ← locate (.int ancestor) p.languages.size
    let l ← p.language lang
    let a ← p.language ancestor
    let ps ← l.pipelines c.limits
    pure (l, a, ps)

/-- Carry the vocabulary of `ancestor` into `lang`. -/
def derive (p : Project) (c : Config) (lang ancestor : Int) :
    Project × Except Error Descent.Report :=
  match p.derivation c lang ancestor with
  | .error e => (p, .error e)
  | .ok (l, a, ps) =>
    let (l, result) := Descent.derive l a lang ancestor ps c.transactional
    (p.withLanguage lang l, result)

/-- The warning after a derivation: that the ancestors of the language form a loop. -/
def derivationWarning? (p : Project) (lang : Int) : Option String :=
  match p.hasAncestryCycle lang with
  | .ok true => some ("Ancestor chain of language " ++ Text.intText lang ++ " now loops")
  | _ => none

end Project
end Neogrammar
