import Neogrammar.Error
import Neogrammar.Pattern.Replace

/-!
# Categories

A category is a variable of one character that stands for a sequence of graphemes. In a pattern it
stands for any of them; in a paired rule it stands for the one at a given place.
-/
namespace Neogrammar

/-- One step of a text that may mention categories: a character, or anything else that came as a
single item. -/
inductive Sign where
  | char (c : Char)
  | other (d : Datum)
  deriving Repr

namespace Sign

/-- An item of a sequence as a sign; what cannot be looked up is refused. -/
def ofItem : Datum → Except Error Sign
  | .text s =>
    match s.toList with
    | [c] => .ok (.char c)
    | _ => .ok (.other (.text s))
  | d => if d.isKey then .ok (.other d) else .error .wrongKind

/-- The signs of a value: the characters of a text, the items of a list. -/
def ofDatum : Datum → Except Error (List Sign)
  | .text s => .ok (s.toList.map .char)
  | d =>
    match d.elements? with
    | some items => items.mapM ofItem
    | none => .error .wrongKind

@[simp] theorem ofDatum_text (s : String) : ofDatum (.text s) = .ok (s.toList.map .char) := rfl

end Sign

/-- Categories in the order in which they were first added. -/
structure Categories where
  entries : List (Char × List Datum)
  deriving Repr

namespace Categories

def empty : Categories := ⟨[]⟩

/-- The graphemes of a category. -/
def find? (t : Categories) (key : Char) : Option (List Datum) := t.entries.lookup key

def has (t : Categories) (key : Char) : Bool := (t.find? key).isSome

/-- The character of a key that is a text of one character. -/
def keyOf? : Datum → Option Char
  | .text s =>
    match s.toList with
    | [c] => some c
    | _ => none
  | _ => none

/-- The graphemes of a value that names a category. -/
def get? (t : Categories) (key : Datum) : Option (List Datum) := (keyOf? key).bind t.find?

/-- Set the graphemes of a key: an old key keeps its place. -/
def putEntry (key : Char) (graphemes : List Datum) :
    List (Char × List Datum) → List (Char × List Datum)
  | [] => [(key, graphemes)]
  | (k, old) :: rest =>
    if k = key then (k, graphemes) :: rest else (k, old) :: putEntry key graphemes rest

/-- Add or overwrite a category. A text gives one grapheme for each character, a list one for each
item. -/
def add (t : Categories) (key content : Datum) : Except Error Categories := do
  match key.size? with
  | none => .error .wrongKind
  | some size =>
    if size ≠ 1 then .error (.categoryKey key)
    else
      match content.elements? with
      | none => .error .wrongKind
      | some graphemes =>
        if graphemes.isEmpty || graphemes.any (!·.truthy) then .error (.categoryContent key)
        else
          match keyOf? key with
          | none => .error .wrongKind
          | some c => .ok ⟨putEntry c graphemes t.entries⟩

/-- Take a category out; the result is its graphemes with the table after. -/
def remove (t : Categories) (key : Datum) : Except Error (List Datum × Categories) :=
  if !key.isKey then .error .wrongKind
  else
    match keyOf? key with
    | none => .error (.unknownCategory key)
    | some c =>
      match t.find? c with
      | none => .error (.unknownCategory key)
      | some graphemes => .ok (graphemes, ⟨t.entries.filter fun e => e.1 != c⟩)

/-- Read a table from the entries of a map. -/
def ofEntries : List (Datum × Datum) → Categories → Except Error Categories
  | [], t => .ok t
  | (key, content) :: rest, t => do
    let t ← t.add key content
    ofEntries rest t

/-- The categories mentioned by signs, in order of first mention; `seen` were mentioned before. -/
def mentioned (t : Categories) : List Char → List Sign → List Char
  | seen, [] => seen
  | seen, .char c :: rest =>
    if t.has c && !seen.contains c then t.mentioned (seen ++ [c]) rest else t.mentioned seen rest
  | seen, .other _ :: rest => t.mentioned seen rest

/-- The categories mentioned by a value. -/
def referenced (t : Categories) (d : Datum) : Except Error (List Char) := do
  let signs ← Sign.ofDatum d
  pure (t.mentioned [] signs)

/-- Put a text before the first one that is not longer. -/
def insertByLength (s : List Char) : List (List Char) → List (List Char)
  | [] => [s]
  | t :: rest => if t.length > s.length then t :: insertByLength s rest else s :: t :: rest

/-- Longer texts first; texts of one length keep their order. -/
def longestFirst : List (List Char) → List (List Char)
  | [] => []
  | s :: rest => insertByLength s (longestFirst rest)

/-- The pattern for any of the given graphemes. Longer ones come first, so that a grapheme wins
over its own beginning. -/
def anyOf (graphemes : List (List Char)) : List Char :=
  if graphemes.all (·.length == 1) then '[' :: graphemes.flatMap Pattern.escape ++ [']']
  else
    ['(', '?', ':'] ++ List.intercalate ['|'] ((longestFirst graphemes).map Pattern.escape) ++ [')']

/-- Graphemes as texts, if all of them are. -/
def texts? (graphemes : List Datum) : Option (List (List Char)) :=
  graphemes.mapM fun d => d.text?.map String.toList

/-- The pattern for a sequence of graphemes. -/
def classOf (graphemes : List Datum) : Except Error (List Char) :=
  match texts? graphemes with
  | some texts => .ok (anyOf texts)
  | none => .error .wrongKind

/-- The pattern for a category. -/
def classAt (t : Categories) (key : Datum) : Except Error (List Char) :=
  if !key.isKey then .error .wrongKind
  else
    match t.get? key with
    | some graphemes => classOf graphemes
    | none => .error (.missingKey key)

/-- A sign within a pattern: a category becomes its class. -/
def expandSign (t : Categories) : Sign → Except Error (List Char)
  | .char c =>
    match t.find? c with
    | some graphemes => classOf graphemes
    | none => .ok [c]
  | .other (.text s) => .ok s.toList
  | .other _ => .error .wrongKind

/-- Replace every category in a sequence of signs by its class. -/
def expandSigns (t : Categories) : List Sign → Except Error (List Char)
  | [] => .ok []
  | sign :: rest => do
    let first ← t.expandSign sign
    let more ← t.expandSigns rest
    pure (first ++ more)

/-- Replace every category in a value by its class. -/
def expand (t : Categories) (d : Datum) : Except Error (List Char) := do
  let signs ← Sign.ofDatum d
  t.expandSigns signs

/-- The item at an index; a negative one counts from the end. -/
def atIndex? (items : List Datum) (index : Int) : Option Datum :=
  if index < 0 then
    if items.length < index.natAbs then none else items[items.length - index.natAbs]?
  else items[index.toNat]?

/-- A sign within a paired rule: a category becomes its grapheme at `index`, as a pattern where
`asPattern` is set. -/
def resolveSign (t : Categories) (index : Int) (asPattern : Bool) : Sign → Except Error Datum
  | .char c =>
    match t.find? c with
    | none => .ok (.text c.toString)
    | some graphemes =>
      match atIndex? graphemes index with
      | none => .error .noGrapheme
      | some (.text s) =>
        .ok (.text (if asPattern then String.ofList (Pattern.escape s.toList) else s))
      | some d => if asPattern then .error .wrongKind else .ok d
  | .other d => .ok d

/-- Join texts into one. -/
def joinTexts : List Datum → Except Error (List Char)
  | [] => .ok []
  | .text s :: rest => do
    let more ← joinTexts rest
    pure (s.toList ++ more)
  | _ :: _ => .error .wrongKind

/-- Replace every category in a value by its grapheme at `index`. -/
def resolve (t : Categories) (d : Datum) (index : Int) (asPattern : Bool) :
    Except Error (List Char) := do
  let signs ← Sign.ofDatum d
  let parts ← signs.mapM (t.resolveSign index asPattern)
  joinTexts parts

/-- Equality of tables does not depend on the order of their entries. -/
def same (t u : Categories) : Bool :=
  t.entries.length == u.entries.length && t.entries.all fun e =>
    match u.find? e.1 with
    | some graphemes => Datum.sameList e.2 graphemes
    | none => false

/-- The notation of a table. -/
def quoted (t : Categories) : String :=
  "CategoryTable(\x7b"
    ++ ", ".intercalate (t.entries.map fun e =>
        Text.quoted e.1.toString ++ ": " ++ Datum.quotedTuple e.2)
    ++ "\x7d)"

end Categories
end Neogrammar
