import Neogrammar.Project.Basic

/-!
# Checking a project

Findings about a project as a whole: ancestors that loop or are missing, coordinates and parts of
speech that lead nowhere, sound changes that no longer compile.
-/
namespace Neogrammar

/-- What a finding is about. -/
inductive Entity where
  | language (index : Nat)
  | word (language index : Nat)
  | soundChange (language index : Nat)
  deriving DecidableEq, Repr

namespace Entity

def kind : Entity → String
  | language _ => "language"
  | word .. => "word"
  | soundChange .. => "sound_change"

def text : Entity → String
  | language i => Text.natText i
  | word l i => Text.natText l ++ ":" ++ Text.natText i
  | soundChange l i => Text.natText l ++ ":" ++ Text.natText i

end Entity

/-- The rules of the check. -/
inductive CheckRule where
  | ancestryLoop
  | ghostCoordinate
  | missingAncestor
  | missingPos
  | brokenSoundChange
  deriving DecidableEq, Repr

namespace CheckRule

def id : CheckRule → String
  | ancestryLoop => "VAL-LIN-001"
  | ghostCoordinate => "VAL-LIN-002"
  | missingAncestor => "VAL-LIN-003"
  | missingPos => "VAL-WRD-001"
  | brokenSoundChange => "VAL-RUL-001"

/-- Loops and broken rules are errors, the others are warnings. -/
def isError : CheckRule → Bool
  | ancestryLoop | brokenSoundChange => true
  | _ => false

def severity (r : CheckRule) : String := if r.isError then "ERROR" else "WARNING"

end CheckRule

structure Finding where
  rule : CheckRule
  entity : Entity
  message : String
  details : List (String × Datum)
  deriving Repr

/-- A coordinate as it is shown, if both of its numbers can be written. -/
def Coordinate.written (c : Coordinate) : Except Error String := do
  let lang ← (Datum.int c.lang).written
  let word ← (Datum.int c.word).written
  pure (lang ++ ":" ++ word)

/-- Compile a sound change that is stored. -/
def SoundChanges.recompile (c : SoundChanges) (s : SoundChange) : Except Error Pipeline := do
  -- the sound change is written down, as errors name it, before it is looked at
  let _ ← s.target.written
  let _ ← s.replacement.written
  c.compile s .default

namespace Project

/-- The words of a project with their places. -/
def placedWords (p : Project) : List (Nat × Nat × Word) :=
  p.languages.items.flatMap fun l => l.2.vocab.items.map fun w => (l.1, w.1, w.2)

/-- What is found about some items, one after another. -/
def scan {α : Type} (items : List α) (look : α → Except Error (List Finding)) :
    Except Error (List Finding) :=
  (items.mapM look).map List.flatten

/-! A finding shows names and numbers; one that cannot be written ends the check. -/

/-- The finding about a language, if its ancestors loop. -/
def loopFinding (p : Project) (i : Nat) (l : Language) : Except Error (List Finding) := do
  if ← p.hasAncestryCycle i then
    let name ← l.name.noted
    let chain ← p.ancestry i
    pure [⟨.ancestryLoop, .language i, "Ancestor chain of " ++ name ++ " loops",
      [("chain", .list (chain.map .int))]⟩]
  else pure []

/-- The finding about a coordinate of a word, if it does not resolve. -/
def ghostFinding (p : Project) (l i : Nat) (c : Coordinate) : Except Error (List Finding) :=
  match p.resolve c with
  | .ok _ => .ok []
  | .error e => do
    let text ← c.written
    pure [⟨.ghostCoordinate, .word l i, "Ancestor " ++ text ++ " does not resolve: " ++ e.message,
      [("lang", .int c.lang), ("word", .int c.word)]⟩]

/-- The finding about a language, if its ancestor is not there. -/
def ancestorFinding (p : Project) (i : Nat) (l : Language) : Except Error (List Finding) :=
  match l.ancestor with
  | none => .ok []
  | some a =>
    if p.languages.isLive a then .ok []
    else do
      let text ← (Datum.int a).written
      pure [⟨.missingAncestor, .language i, "Ancestor language " ++ text ++ " does not exist",
        [("ancestor", .int a)]⟩]

/-- The finding about a word, if its part of speech is not there. -/
def posFinding (p : Project) (l i : Nat) (w : Word) : Except Error (List Finding) :=
  if p.partsOfSpeech.isLive w.pos then .ok []
  else do
    let text ← (Datum.int w.pos).written
    pure [⟨.missingPos, .word l i, "Part of speech " ++ text ++ " does not exist",
      [("pos", .int w.pos)]⟩]

/-- The finding about one sound change, if it no longer compiles. Only errors of editing are
findings; any other ends the check. -/
def soundChangeFinding (l : Nat) (c : SoundChanges) (i : Nat) (s : SoundChange) :
    Except Error (List Finding) :=
  match c.recompile s with
  | .ok _ => .ok []
  | .error e =>
    if e.isEditing then
      .ok [⟨.brokenSoundChange, .soundChange l i, e.message, [("rule", .text s.text)]⟩]
    else .error e

def loopFindings (p : Project) : Except Error (List Finding) :=
  scan p.languages.items fun (i, l) => p.loopFinding i l

def ghostFindings (p : Project) : Except Error (List Finding) :=
  scan p.placedWords fun (l, i, w) => scan w.ancestors (p.ghostFinding l i)

def ancestorFindings (p : Project) : Except Error (List Finding) :=
  scan p.languages.items fun (i, l) => p.ancestorFinding i l

def posFindings (p : Project) : Except Error (List Finding) :=
  scan p.placedWords fun (l, i, w) => p.posFinding l i w

def soundChangeFindings (p : Project) : Except Error (List Finding) :=
  scan p.languages.items fun (l, language) =>
    scan language.soundChanges.rules.zipIdx fun (s, i) =>
      soundChangeFinding l language.soundChanges i s

/-- All findings about a project. -/
def check (p : Project) : Except Error (List Finding) := do
  let loops ← p.loopFindings
  let ghosts ← p.ghostFindings
  let ancestors ← p.ancestorFindings
  let pos ← p.posFindings
  let broken ← p.soundChangeFindings
  pure (loops ++ ghosts ++ ancestors ++ pos ++ broken)

/-- The findings about one language: those about things whose place begins with its index. -/
def checkLanguage (p : Project) (lang : Int) : Except Error (List Finding) := do
  let index ← (Datum.int lang).written
  let findings ← p.check
  pure (findings.filter fun f => f.entity.text.toList.takeWhile (· != ':') == index.toList)

/-- The coordinates of a word that do not resolve. -/
def ghosts (p : Project) (w : Word) : List Coordinate :=
  w.ancestors.filter fun c => match p.resolve c with
    | .ok _ => false
    | .error _ => true

/-- The warnings of a check, one for each coordinate that does not resolve, as far as it comes. -/
def ghostWarnings (p : Project) : List String :=
  match p.loopFindings with
  | .error _ => []
  | .ok _ =>
    let warnings : List (Except Error String) := p.placedWords.flatMap fun (l, i, w) =>
      (p.ghosts w).map fun c => c.written.map fun text =>
        "Ghost coordinate " ++ text ++ " on word " ++ (Entity.word l i).text
    (warnings.takeWhile fun o => o.toOption.isSome).filterMap (·.toOption)

end Project
end Neogrammar
