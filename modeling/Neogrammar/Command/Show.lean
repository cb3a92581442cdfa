import Neogrammar.Command.Load
import Neogrammar.Project.Check
import Neogrammar.Project.Lookup

/-!
# Showing projects

A project is shown as a table of its languages, or one language with its categories, rules and
words. A check prints the findings about a project.
-/
namespace Neogrammar

/-- Pad a text with blanks on its right. -/
def padded (width : Nat) (s : String) : String :=
  s ++ String.ofList (List.replicate (width - s.length) ' ')

/-- A row of the table of languages. -/
def tableRow (index name ancestor words rules : String) : String :=
  padded 5 index ++ " " ++ padded 24 name ++ " " ++ padded 10 ancestor ++ " " ++
    padded 7 words ++ " "
    ++ rules

namespace Language

/-- How many rules a language has, of all kinds. -/
def ruleCount (l : Language) : Nat :=
  l.surfaceRules.length + l.phoneticRules.length + l.soundChanges.rules.length

/-- The row of a language; long names are cut. -/
def tableRow (l : Language) (index : Nat) : String :=
  Neogrammar.tableRow (Text.natText index) (String.ofList (l.name.display.toList.take 24))
    ((l.ancestor.map Text.intText).getD "-") (Text.natText l.vocab.items.length)
    (Text.natText l.ruleCount)

end Language

namespace Word

/-- The line of a word: its forms, its gloss and what it descends from. -/
def line (w : Word) (index : Nat) : String :=
  let origin := if w.ancestors.isEmpty then ""
    else "  < " ++ ", ".intercalate (w.ancestors.map Coordinate.text)
  "  " ++ Text.natText index ++ ": " ++ w.surface.display ++ " [" ++ w.phonetic.display ++ "] '"
    ++ w.gloss.display ++ "'" ++ origin

end Word

namespace Script

/-- Print a title and numbered lines, unless there are none. -/
def writeListing (title : String) (items : List String) : Script Unit :=
  if items.isEmpty then pure ()
  else do
    writeLine ("\n" ++ title ++ ":")
    writeLines (items.zipIdx.map fun e => "  " ++ Text.natText e.2 ++ ": " ++ e.1)

/-- The graphemes of a category, which must all be texts. -/
def graphemeTexts (graphemes : List Datum) : Except Error (List String) :=
  graphemes.mapM fun g => (g.text?.map Except.ok).getD (.error .wrongKind)

def writeCategory (entry : Char × List Datum) : Script Unit := do
  let graphemes ← edited (graphemeTexts entry.2)
  writeLine ("  " ++ entry.1.toString ++ " = " ++ " ".intercalate graphemes)

def writeCategories (t : Categories) : Script Unit :=
  if t.entries.isEmpty then pure ()
  else do
    writeLine "\nCategories:"
    t.entries.forM writeCategory

def showLanguages (p : Project) : Script Unit :=
  match p.languages.items with
  | [] => writeLine "No languages."
  | items => do
    writeLine ("\n" ++ tableRow "Idx" "Name" "Ancestor" "Words" "Rules")
    writeLine (String.ofList (List.replicate 60 '-'))
    writeLines (items.map fun e => e.2.tableRow e.1)
    match p.partsOfSpeech.items with
    | [] => pure ()
    | items => do
      writeLine "\nParts of speech:"
      writeLines (items.map fun e =>
        "  " ++ Text.natText e.1 ++ ": " ++ e.2.name.display ++ " (" ++ e.2.abbr.display ++ ")")

/-- The line of ancestors of a language that has one. -/
def writeAncestry (p : Project) (index : Nat) (l : Language) : Script Unit :=
  match l.ancestor with
  | none => pure ()
  | some _ => do
    let ancestors ← edited (p.ancestry index)
    writeLine ("  Ancestry: " ++ " <- ".intercalate (((index : Int) :: ancestors).map Text.intText))

def showLanguage (p : Project) (index : Nat) : Script Unit := do
  let l ← edited (p.language index)
  writeLine ("\nLanguage " ++ Text.natText index ++ ": " ++ l.name.display)
  writeAncestry p index l
  writeCategories l.soundChanges.categories
  writeListing "Surface rules" (l.surfaceRules.map Replace.text)
  writeListing "Phonetic rules" (l.phoneticRules.map Replace.text)
  writeListing "Sound changes" (l.soundChanges.rules.map SoundChange.text)
  match l.vocab.items with
  | [] => pure ()
  | items => do
    writeLine ("\nWords (" ++ Text.natText items.length ++ "):")
    writeLines (items.map fun e => e.2.line e.1)

/-- Show a project, or the language of it that is asked for. -/
def showProject (p : Project) (language : Option String) : Script Unit :=
  match language with
  | none => showLanguages p
  | some ref => do
    match ← edited (p.lookUp ref) with
    | some index => showLanguage p index
    | none => do
      writeLine ("Language " ++ ref ++ " not found.")
      exit 1

def writeFinding (f : Finding) : Script Unit :=
  writeLine ("  [" ++ (if f.rule.isError then "ERROR" else "WARN") ++ "] " ++ f.rule.id ++ " "
    ++ f.entity.kind ++ " " ++ f.entity.text ++ ": " ++ f.message)

/-- How many errors and warnings there are. -/
def tallyLine (errors warnings : Nat) : String :=
  "\nFound " ++ Text.natText errors ++ " error(s), " ++ Text.natText warnings ++ " warning(s)"

/-- Check a project; errors among the findings are told by the exit code. -/
def checkProject (p : Project) : Script Unit := do
  match ← edited p.check with
  | [] => writeLine "\nNo problems found."
  | findings => do
    let errors := findings.countP (·.rule.isError)
    writeLine ""
    findings.forM writeFinding
    writeLine (tallyLine errors (findings.length - errors))
    if errors = 0 then pure () else exit 1

end Script
end Neogrammar
