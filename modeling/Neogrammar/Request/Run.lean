import Neogrammar.Project.Session
import Neogrammar.Request.Basic

/-!
# Running change requests

Changes are applied one after another, and a failed one does not stop the others. An atomic run
stops at the first failure and leaves its block of edits by an error. A dry run works on a copy.

What a change did is reported when it is done. A report fails if it shows a number that cannot be
written; the change stays all the same.
-/
namespace Neogrammar.Request

/-- What a change did: a message, what it was about, and the index that it created. -/
structure Done where
  message : String
  target : Datum
  created : Option Nat
  deriving Repr

/-- The project after a change and the report of it, which may fail though the change is made. -/
abbrev Outcome := Project × Except Error Done

/-- The outcome of one change. -/
structure ChangeResult where
  index : Nat
  operation : String
  success : Bool
  message : String
  target : Datum
  created : Option Nat
  error : Option String
  line : Option Nat
  deriving Repr

/-- How many changes there were, succeeded and failed. -/
structure Tally where
  total : Int
  success : Int
  failure : Int
  deriving DecidableEq, Repr

/-- Changes that were not reached. -/
def Tally.skipped (t : Tally) : Int := t.total - t.success - t.failure

structure RunResult where
  tally : Tally
  changes : List ChangeResult
  rolledBack : Bool
  deriving Repr

/-! ## References -/

/-- The value of a field that must be there. -/
def need (c : Change) (name : String) : Except Error Datum :=
  match c.field? name with
  | some d => .ok d
  | none => .error (.missingKey (.text name))

/-- A language by its name or index. -/
def languageOf (p : Project) : Datum → Except Error Int
  | .text name =>
    match p.findLanguage (.text name) with
    | some i => .ok i
    | none => .error (.noLanguage name)
  | d => d.toWhole

/-- A part of speech by its abbreviation or index. -/
def posOf (p : Project) : Datum → Except Error Int
  | .text abbr =>
    match p.findPos (.text abbr) with
    | some i => .ok i
    | none => .error (.noPartOfSpeech abbr)
  | d => d.toWhole

/-- A coordinate: a text, or a map of language and word. -/
def coordinateOf (p : Project) (d : Datum) : Except Error Coordinate :=
  match d with
  | .text s => Coordinate.ofText s
  | .map es => do
    let lang ← (Datum.field? "lang" es).elim (.error (.missingKey "lang")) (languageOf p)
    let word ← (Datum.field? "word" es).elim (.error (.missingKey "word")) Datum.toWhole
    pure ⟨lang, word⟩
  | _ => .error .wrongKind

/-- Coordinates; a missing or empty value gives none. -/
def coordinatesOf (p : Project) (d : Datum) : Except Error (List Coordinate) :=
  if !d.truthy then .ok []
  else
    match d.elements? with
    | some items => items.mapM (coordinateOf p)
    | none => .error .wrongKind

def needLanguage (p : Project) (c : Change) (name : String) : Except Error Int := do
  let d ← need c name
  languageOf p d

/-! ## Reports -/

/-- What is reported where nothing was created, about a language. -/
def doneIn (lang : Int) (message : String) : Done := ⟨message, .text (Text.intText lang), none⟩

def createdIn (lang : Int) (message : String) (i : Nat) : Done :=
  ⟨message, .text (Text.intText lang), some i⟩

/-- How a word is named: its language and the index as it was given. -/
def wordTarget (lang : Int) (index : Datum) : String := Text.intText lang ++ ":" ++ index.display

def addedLanguage (name : Datum) (i : Nat) : Except Error Done := do
  let shown ← name.written
  pure ⟨"Added language '" ++ shown ++ "' at " ++ Text.natText i, name, some i⟩

def renamedLanguage (lang : Int) (name : Datum) : Except Error Done := do
  let shown ← name.written
  pure (doneIn lang ("Renamed language " ++ Text.intText lang ++ " to '" ++ shown ++ "'"))

def removedLanguage (lang : Int) : Done := doneIn lang ("Removed language " ++ Text.intText lang)

def ancestorSet (lang : Int) (ancestor : Option Int) : Done :=
  doneIn lang ("Set ancestor of " ++ Text.intText lang ++ " to "
    ++ (ancestor.map Text.intText).getD Datum.null.quoted)

def addedPos (abbr : Datum) (i : Nat) : Except Error Done := do
  let shown ← abbr.written
  pure ⟨"Added part of speech '" ++ shown ++ "' at " ++ Text.natText i, .null, some i⟩

def alteredPos (index : Datum) : Done :=
  ⟨"Altered part of speech " ++ index.display, .text index.display, none⟩

def removedPos (index : Datum) : Done :=
  ⟨"Removed part of speech " ++ index.display, .text index.display, none⟩

/-- The report on a word that was added shows the forms that were computed. -/
def addedWord (p : Project) (lang : Int) (i : Nat) : Except Error Done := do
  let w ← p.word lang (.nat i)
  let surface ← w.surface.written
  let phonetic ← w.phonetic.written
  pure ⟨"Added '" ++ surface ++ "' [" ++ phonetic ++ "] to language " ++ Text.intText lang,
    .text (wordTarget lang (.nat i)), some i⟩

def alteredWord (lang : Int) (index : Datum) (w : Word) : Except Error Done := do
  let surface ← w.surface.written
  let target := wordTarget lang index
  pure ⟨"Altered word " ++ target ++ " -> '" ++ surface ++ "'", .text target, none⟩

def removedWord (lang : Int) (index : Datum) : Done :=
  let target := wordTarget lang index
  ⟨"Removed word " ++ target, .text target, none⟩

/-- How messages name a rule of some kind. -/
def ruleNoun : RuleKind → String
  | .surface => "surface rule"
  | .phonetic => "phonetic rule"
  | .soundChange => "sound change"

/-- What is reported of a change to a rule. -/
def ruleMessage (kind : RuleKind) (action : Action) (index : Datum) : String :=
  action.past ++ " " ++ ruleNoun kind ++ " " ++ index.display

def addedCategory (lang : Int) (key : Datum) : Done :=
  doneIn lang ("Set category '" ++ key.display ++ "'")

def removedCategory (lang : Int) (key : Datum) : Done :=
  doneIn lang ("Removed category '" ++ key.display ++ "'")

def derivationMessage (r : Descent.Report) : String :=
  "Derived " ++ Text.intText r.language ++ " from " ++ Text.intText r.ancestor ++ ": "
    ++ Text.natText r.fused.length ++ " refreshed, "
    ++ Text.natText r.inherited.length ++ " inherited"

/-- The report on forms that were computed, in one language or in all. -/
def recomputed (lang : Option Int) (count : Nat) : Done :=
  ⟨"Recomputed " ++ Text.natText count ++ " word(s)",
    match lang with
    | some l => .text (Text.intText l)
    | none => .null, none⟩

/-! ## Changes -/

def addLanguage (p : Project) (c : Change) : Except Error Outcome := do
  let name ← need c "name"
  let (i, p) := p.addLanguage name
  pure (p, addedLanguage name i)

def renameLanguage (p : Project) (c : Change) : Except Error Outcome := do
  let lang ← needLanguage p c "language"
  let name ← need c "name"
  let p ← p.renameLanguage lang name
  pure (p, renamedLanguage lang name)

def removeLanguage (p : Project) (c : Change) : Except Error Outcome := do
  let lang ← needLanguage p c "language"
  let p ← p.removeLanguage lang
  pure (p, .ok (removedLanguage lang))

/-- The ancestor that a change names, if it names one. -/
def ancestorOf (p : Project) (c : Change) : Except Error (Option Int) :=
  let d := c.fieldOrNull "ancestor"
  if d.isNull then .ok none else (languageOf p d).map some

def setAncestor (p : Project) (c : Change) : Except Error Outcome := do
  let lang ← needLanguage p c "language"
  let ancestor ← ancestorOf p c
  let p ← p.setAncestor lang ancestor
  pure (p, .ok (ancestorSet lang ancestor))

def addPos (p : Project) (c : Change) : Except Error Outcome := do
  let name ← need c "name"
  let abbr ← need c "abbr"
  let (i, p) := p.addPos name abbr
  pure (p, addedPos abbr i)

def alterPos (p : Project) (c : Change) : Except Error Outcome := do
  let index ← need c "index"
  let name ← need c "name"
  let abbr ← need c "abbr"
  let p ← p.alterPos index name abbr
  pure (p, .ok (alteredPos index))

def removePos (p : Project) (c : Change) : Except Error Outcome := do
  let index ← need c "index"
  let p ← p.removePos index
  pure (p, .ok (removedPos index))

/-- The word that a change enters. -/
def enteredWord (p : Project) (c : Change) : Except Error Word := do
  let mnemonic ← need c "mnemonic"
  let gloss ← need c "gloss"
  let pos ← need c "pos"
  let pos ← posOf p pos
  let note := (c.field? "note").getD ""
  let ancestors ← coordinatesOf p (c.fieldOrNull "ancestors")
  pure (.entered mnemonic gloss pos note ancestors)

def addWord (p : Project) (cfg : Config) (c : Change) : Except Error Outcome := do
  let lang ← needLanguage p c "language"
  let word ← enteredWord p c
  let (i, p) ← p.addWord cfg lang word
  pure (p, addedWord p lang i)

/-- A field that changes a word; null changes nothing. -/
def changed (c : Change) (name : String) : Option Datum :=
  (c.field? name).filter fun d => !d.isNull

/-- What a change makes of a word. -/
def wordChangeOf (p : Project) (c : Change) : Except Error WordChange := do
  let pos ← (c.field? "pos").mapM (posOf p)
  let ancestors ← (c.field? "ancestors").mapM (coordinatesOf p)
  pure ⟨changed c "mnemonic", changed c "gloss", pos, changed c "note", ancestors⟩

def alterWord (p : Project) (cfg : Config) (c : Change) : Except Error Outcome := do
  let lang ← needLanguage p c "language"
  let change ← wordChangeOf p c
  let index ← need c "index"
  let (w, p) ← p.alterWord cfg lang index change
  pure (p, alteredWord lang index w)

def removeWord (p : Project) (c : Change) : Except Error Outcome := do
  let lang ← needLanguage p c "language"
  let index ← need c "index"
  let p ← p.removeWord lang index
  pure (p, .ok (removedWord lang index))

/-- Put a rule after all others; `add` is given the fields that it consists of. -/
def addRule (p : Project) (c : Change) (kind : RuleKind) : Except Error Outcome := do
  let lang ← needLanguage p c "language"
  let (i, p) ←
    match kind with
    | .soundChange => do
      let target ← need c "target"
      let replacement ← need c "replacement"
      let environment ← need c "environment"
      p.addSoundChange lang target replacement environment
    | _ => do
      let pattern ← need c "pattern"
      let replacement ← need c "replacement"
      p.addRule lang kind pattern replacement
  pure (p, .ok (createdIn lang (ruleMessage kind .add (.nat i)) i))

def alterRule (p : Project) (c : Change) (kind : RuleKind) : Except Error Outcome := do
  let lang ← needLanguage p c "language"
  let index ← need c "index"
  let p ←
    match kind with
    | .soundChange => do
      let target ← need c "target"
      let replacement ← need c "replacement"
      let environment ← need c "environment"
      p.alterSoundChange lang index target replacement environment
    | _ => do
      let pattern ← need c "pattern"
      let replacement ← need c "replacement"
      p.alterRule lang kind index pattern replacement
  pure (p, .ok (doneIn lang (ruleMessage kind .alter index)))

def insertRule (p : Project) (c : Change) (kind : RuleKind) : Except Error Outcome := do
  let lang ← needLanguage p c "language"
  let index ← need c "index"
  let p ←
    match kind with
    | .soundChange => do
      let target ← need c "target"
      let replacement ← need c "replacement"
      let environment ← need c "environment"
      p.insertSoundChange lang index target replacement environment
    | _ => do
      let pattern ← need c "pattern"
      let replacement ← need c "replacement"
      p.insertRule lang kind index pattern replacement
  pure (p, .ok (doneIn lang (ruleMessage kind .insert index)))

def removeRule (p : Project) (c : Change) (kind : RuleKind) : Except Error Outcome := do
  let lang ← needLanguage p c "language"
  let index ← need c "index"
  let p ←
    match kind with
    | .soundChange => p.removeSoundChange lang index
    | _ => p.removeRule lang kind index
  pure (p, .ok (doneIn lang (ruleMessage kind .remove index)))

def addCategory (p : Project) (c : Change) : Except Error Outcome := do
  let lang ← needLanguage p c "language"
  let key ← need c "key"
  let content ← need c "content"
  let p ← p.addCategory lang key content
  pure (p, .ok (addedCategory lang key))

def removeCategory (p : Project) (c : Change) : Except Error Outcome := do
  let lang ← needLanguage p c "language"
  let key ← need c "key"
  let p ← p.removeCategory lang key
  pure (p, .ok (removedCategory lang key))

/-- A change that is not made leaves the project alone. -/
def applied (p : Project) : Except Error Outcome → Outcome
  | .ok outcome => outcome
  | .error e => (p, .error e)

/-- The two languages of a derivation. -/
def derivationOf (p : Project) (c : Change) : Except Error (Int × Int) := do
  let lang ← needLanguage p c "language"
  let ancestor ← needLanguage p c "ancestor"
  pure (lang, ancestor)

def derive (p : Project) (cfg : Config) (c : Change) : Outcome :=
  match derivationOf p c with
  | .error e => (p, .error e)
  | .ok (lang, ancestor) =>
    let (p, result) := p.derive cfg lang ancestor
    (p, result.map fun r => doneIn lang (derivationMessage r))

/-- The language to compute forms in, if one is named. -/
def morphLanguageOf (p : Project) (c : Change) : Except Error (Option Int) :=
  let d := c.fieldOrNull "language"
  if d.isNull then .ok none else (languageOf p d).map some

def morph (p : Project) (cfg : Config) (c : Change) : Outcome :=
  match morphLanguageOf p c with
  | .error e => (p, .error e)
  | .ok lang =>
    let (p, result) := p.morphAll cfg lang
    (p, result.map (recomputed lang))

/-- Apply a change whose operation is known. -/
def apply (p : Project) (cfg : Config) (o : Operation) (c : Change) : Outcome :=
  match o with
  | .addLanguage => applied p (addLanguage p c)
  | .renameLanguage => applied p (renameLanguage p c)
  | .removeLanguage => applied p (removeLanguage p c)
  | .setAncestor => applied p (setAncestor p c)
  | .addPos => applied p (addPos p c)
  | .alterPos => applied p (alterPos p c)
  | .removePos => applied p (removePos p c)
  | .addWord => applied p (addWord p cfg c)
  | .alterWord => applied p (alterWord p cfg c)
  | .removeWord => applied p (removeWord p c)
  | .rule kind .add => applied p (addRule p c kind)
  | .rule kind .alter => applied p (alterRule p c kind)
  | .rule kind .insert => applied p (insertRule p c kind)
  | .rule kind .remove => applied p (removeRule p c kind)
  | .addCategory => applied p (addCategory p c)
  | .removeCategory => applied p (removeCategory p c)
  | .derive => derive p cfg c
  | .morph => morph p cfg c

/-- The result of a failed change. -/
def failed (index : Nat) (c : Change) (message error : String) : ChangeResult :=
  ⟨index, c.operation, false, message, .null, none, some error, c.line⟩

/-- Run one change. -/
def runChange (p : Project) (cfg : Config) (index : Nat) (c : Change) : Project × ChangeResult :=
  match Operation.ofName? c.operation with
  | none =>
    let message := "Unknown operation: " ++ c.operation
    (p, failed index c message message)
  | some o =>
    match apply p cfg o c with
    | (p, .ok done) =>
      (p, ⟨index, c.operation, true, done.message, done.target, done.created, none, c.line⟩)
    | (p, .error e) => (p, failed index c ("Error: " ++ e.message) e.message)

/-- Run changes from the one at `index` on. -/
def runAll (cfg : Config) : Project → Nat → List Change → Project × List ChangeResult
  | p, _, [] => (p, [])
  | p, index, c :: rest =>
    let (p, result) := runChange p cfg index c
    let (p, results) := runAll cfg p (index + 1) rest
    (p, result :: results)

/-- Run changes up to and with the first one that fails. -/
def runUntilFailure (cfg : Config) : Project → Nat → List Change → Project × List ChangeResult
  | p, _, [] => (p, [])
  | p, index, c :: rest =>
    let (p, result) := runChange p cfg index c
    if result.success then
      let (p, results) := runUntilFailure cfg p (index + 1) rest
      (p, result :: results)
    else (p, [result])

def tally (r : Request) (results : List ChangeResult) : Tally :=
  ⟨r.changes.length, (results.countP (·.success) : Nat), (results.countP (!·.success) : Nat)⟩

/-- Run a request in a session. -/
def runIn (r : Request) (s : Session) (atomic : Bool) : Session × RunResult :=
  if atomic then
    let s := s.openBlock
    let (p, results) := runUntilFailure s.config s.project 0 r.changes
    let s := s.withProject p
    let rolledBack := results.any (!·.success)
    (if rolledBack then s.abortBlock else s.closeBlock, ⟨tally r results, results, rolledBack⟩)
  else
    let (p, results) := runAll s.config s.project 0 r.changes
    (s.withProject p, ⟨tally r results, results, false⟩)

/-- Run a request; a dry run leaves the session as it was. -/
def run (r : Request) (s : Session) (dryRun atomic : Bool) : Session × RunResult :=
  let (after, result) := r.runIn s atomic
  (if dryRun then s else after, result)

end Neogrammar.Request
