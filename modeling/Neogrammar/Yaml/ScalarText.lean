import Neogrammar.Json.Reader
import Neogrammar.Yaml.Cursor

/-!
# Texts of scalars

Scalars are written plain, in quotes, or as indented blocks. Each reader starts at the first
character of its scalar and gives its text with the place after it. Lines are folded: a single
break becomes a space, and of several breaks the first is dropped.
-/
namespace Neogrammar.Yaml

/-- What a first break and the breaks after it fold to. -/
def foldBreaks (first : Char) (more : List Char) : List Char :=
  if first != '\n' then first :: more else if more.isEmpty then [' '] else more

/-! ## Plain scalars -/

def isFlowSign (c : Char) : Bool :=
  c == ',' || c == '[' || c == ']' || c == '\x7b' || c == '\x7d'

/-- Whether a plain scalar ends before a character, given the one after that. -/
def plainEnds (flow : Bool) (c : Char) (next : Option Char) : Bool :=
  isBlank c || isBreak c
    || (c == ':' && (endsWord next || (flow && next.any isFlowSign)))
    || (flow && (isFlowSign c || c == '?'))

/-- How many characters of a plain scalar stand on this line before a blank. -/
def plainLength (flow : Bool) : List Char → Nat
  | [] => 0
  | c :: rest => if plainEnds flow c rest.head? then 0 else plainLength flow rest + 1

/-- Breaks and spaces within a plain scalar; nothing if a mark between documents stands there. -/
def plainBreaks : Nat → Cursor → List Char → Option (List Char) × Cursor
  | 0, c, breaks => (some breaks, c)
  | fuel + 1, c, breaks =>
    if c.next? == some ' ' then plainBreaks fuel c.step breaks
    else
      match c.takeBreak? with
      | none => (some breaks, c)
      | some (b, c) => if c.atMarker then (none, c) else plainBreaks fuel c (breaks ++ [b])

/-- What lies between two words of a plain scalar, the place after, and whether a break is in it. -/
def plainGap (c : Cursor) : Option (List Char) × Cursor × Bool :=
  let (spaces, c) := c.span isSpace
  match c.takeBreak? with
  | none => (some spaces, c, false)
  | some (first, c) =>
    if c.atMarker then (none, c, true)
    else
      let (more, c) := plainBreaks (c.rest.length + 1) c []
      (more.map (foldBreaks first), c, true)

/-- A plain scalar. `crossed` says that breaks were read after its last word. -/
structure Plain where
  text : List Char
  cursor : Cursor
  crossed : Bool

/-- Words of a plain scalar; `gap` stands before the first of them. Outside brackets each line must
be indented. -/
def readPlain (flow : Bool) (indent : Int) : Nat → List Char → Bool → Cursor → Plain
  | 0, _, crossed, c => ⟨[], c, crossed⟩
  | fuel + 1, gap, crossed, c =>
    let length := plainLength flow c.rest
    if c.next? == some '#' || length == 0 then ⟨[], c, crossed⟩
    else
      let text := gap ++ c.rest.take length
      match plainGap (c.advance length) with
      | (none, c, crossed) => ⟨text, c, crossed⟩
      | (some [], c, crossed) => ⟨text, c, crossed⟩
      | (some gap, c, crossed) =>
        if c.next? == some '#' || (!flow && (c.column : Int) < indent) then ⟨text, c, crossed⟩
        else
          let more := readPlain flow indent fuel gap crossed c
          { more with text := text ++ more.text }

/-! ## Scalars in quotes -/

/-- Escapes of one character. -/
def escaped? : Char → Option Char
  | '0' => some '\x00'
  | 'a' => some '\x07'
  | 'b' => some '\x08'
  | 't' => some '\t'
  | '\t' => some '\t'
  | 'n' => some '\n'
  | 'v' => some '\x0b'
  | 'f' => some '\x0c'
  | 'r' => some '\r'
  | 'e' => some '\x1b'
  | ' ' => some ' '
  | '"' => some '"'
  | '\\' => some '\\'
  | '/' => some '/'
  | 'N' => some '\x85'
  | '_' => some '\xa0'
  | 'L' => some '\u2028'
  | 'P' => some '\u2029'
  | _ => none

/-- How many hexadecimal digits an escape takes. -/
def escapeWidth? : Char → Option Nat
  | 'x' => some 2
  | 'u' => some 4
  | 'U' => some 8
  | _ => none

/-- The value of exactly `width` hexadecimal digits. -/
def hexNumeral? (width : Nat) (s : List Char) : Option Nat := do
  let digits ← (s.take width).mapM Json.hexValue?
  if digits.length = width then some (Text.ofDigits 16 digits) else none

/-- The character of a code; a half of a pair becomes the replacement character. -/
def characterOf (code : Nat) : Except Fault Char :=
  if Text.codeLimit ≤ code then .error .codeTooLarge
  else if 0x10FFFF < code then .error .noCharacter
  else .ok (if 0xD800 ≤ code ∧ code ≤ 0xDFFF then '\ufffd' else Char.ofNat code)

/-- Empty lines within quotes; a mark between documents is refused. -/
def quotedBreaks : Nat → Cursor → Except Fault (List Char × Cursor)
  | 0, c => .ok ([], c)
  | fuel + 1, c =>
    if c.atMarker then .error c.fault
    else
      let c := c.skip isBlank
      match c.takeBreak? with
      | none => .ok ([], c)
      | some (b, c) => do
        let (more, c) ← quotedBreaks fuel c
        pure (b :: more, c)

/-- What lies between two words within quotes. -/
def quotedGap (c : Cursor) : Except Fault (List Char × Cursor) :=
  let (blanks, c) := c.span isBlank
  if c.rest.isEmpty then .error c.fault
  else
    match c.takeBreak? with
    | none => .ok (blanks, c)
    | some (first, c) => do
      let (more, c) ← quotedBreaks (c.rest.length + 1) c
      pure (foldBreaks first more, c)

def isQuotedStop (c : Char) : Bool :=
  c == '\'' || c == '"' || c == '\\' || isBlank c || isBreak c

/-- What an escape stands for; the cursor is after the backslash. -/
def readEscape (c : Cursor) : Except Fault (List Char × Cursor) :=
  match c.next? with
  | none => .error c.fault
  | some ch =>
    match escaped? ch with
    | some e => .ok ([e], c.step)
    | none =>
      match escapeWidth? ch with
      | some width =>
        let c := c.step
        match hexNumeral? width c.rest with
        | none => .error c.fault
        | some code => do
          let e ← characterOf code
          pure ([e], c.advance width)
      | none =>
        if isBreak ch then quotedBreaks (c.rest.length + 1) c.skipBreak else .error c.fault

/-- A word within quotes, up to a blank, a break or the closing quote. -/
def quotedWord (double : Bool) : Nat → Cursor → Except Fault (List Char × Cursor)
  | 0, c => .ok ([], c)
  | fuel + 1, c =>
    let (s, c) := c.span fun ch => !isQuotedStop ch
    let next := c.next?
    if !double && next == some '\'' && c.at? 1 == some '\'' then do
      let (more, c) ← quotedWord double fuel (c.advance 2)
      pure (s ++ '\'' :: more, c)
    else if double && next == some '\'' then do
      let (more, c) ← quotedWord double fuel c.step
      pure (s ++ '\'' :: more, c)
    else if !double && (next == some '"' || next == some '\\') then do
      let (more, after) ← quotedWord double fuel c.step
      pure (s ++ next.toList ++ more, after)
    else if double && next == some '\\' then do
      let (e, c) ← readEscape c.step
      let (more, c) ← quotedWord double fuel c
      pure (s ++ e ++ more, c)
    else .ok (s, c)

/-- The rest of a scalar up to its closing quote, which is taken too. -/
def quotedRest (double : Bool) : Nat → Cursor → Except Fault (List Char × Cursor)
  | 0, c => .error c.fault
  | fuel + 1, c => do
    let (word, c) ← quotedWord double (c.rest.length + 1) c
    if c.next? == some (if double then '"' else '\'') then pure (word, c.step)
    else do
      let (gap, c) ← quotedGap c
      let (more, c) ← quotedRest double fuel c
      pure (word ++ gap ++ more, c)

/-- A scalar in single or double quotes. -/
def readQuoted (double : Bool) (c : Cursor) : Except Fault (List Char × Cursor) :=
  quotedRest double (c.rest.length + 1) c.step

/-! ## Blocks -/

/-- What is kept after the last line of a block: no break, one, or all. -/
inductive Chomp where
  | strip
  | clip
  | keep
  deriving DecidableEq, Repr

/-- The indicators after the sign of a block. -/
structure BlockHeader where
  chomp : Chomp
  indent : Option Nat
  cursor : Cursor

def chomp? : Option Char → Option Chomp
  | some '+' => some .keep
  | some '-' => some .strip
  | _ => none

def digit? : Option Char → Option Nat
  | some c => if c.isDigit then some (c.toNat - '0'.toNat) else none
  | none => none

/-- A digit for the indentation, which is not zero. -/
def readBlockIndent (c : Cursor) : Except Fault (Option Nat × Cursor) :=
  match digit? c.next? with
  | none => .ok (none, c)
  | some 0 => .error c.fault
  | some n => .ok (some n, c.step)

def readBlockHeader (c : Cursor) : Except Fault BlockHeader := do
  let header ←
    match chomp? c.next? with
    | some chomp => do
      let (indent, c) ← readBlockIndent c.step
      pure (⟨chomp, indent, c⟩ : BlockHeader)
    | none => do
      let (indent, c) ← readBlockIndent c
      match indent, chomp? c.next? with
      | some _, some chomp => pure ⟨chomp, indent, c.step⟩
      | _, _ => pure ⟨.clip, indent, c⟩
  if endsItem header.cursor.next? then pure header else .error header.cursor.fault

/-- Empty lines before a block whose indentation is not given, with the greatest column of a
space. -/
def blockStart : Nat → Cursor → List Char × Nat × Cursor
  | 0, c => ([], 0, c)
  | fuel + 1, c =>
    if c.next? == some ' ' then
      let column := c.step.column
      let (breaks, widest, c) := blockStart fuel c.step
      (breaks, max column widest, c)
    else
      match c.takeBreak? with
      | none => ([], 0, c)
      | some (b, c) =>
        let (breaks, widest, c) := blockStart fuel c
        (b :: breaks, widest, c)

/-- Skip spaces up to a column. -/
def alignTo (column : Nat) : Nat → Cursor → Cursor
  | 0, c => c
  | fuel + 1, c =>
    if c.column < column && c.next? == some ' ' then alignTo column fuel c.step else c

/-- Empty lines within a block; then spaces up to its indentation. -/
def blockBreaks (indent : Nat) : Nat → Cursor → List Char × Cursor
  | 0, c => ([], c)
  | fuel + 1, c =>
    let c := alignTo indent indent c
    match c.takeBreak? with
    | none => ([], c)
    | some (b, c) =>
      let (more, c) := blockBreaks indent fuel c
      (b :: more, c)

/-- The lines of a block, the break that ends the last one, and the empty lines after it. -/
structure BlockBody where
  text : List Char
  last : List Char
  breaks : List Char
  cursor : Cursor

/-- How two lines are joined: folding turns a break between lines that start with no blank into a
space, or into nothing where empty lines follow. -/
def joinLines (folded indentedBefore indentedAfter : Bool) (last breaks : List Char) : List Char :=
  if folded && last == ['\n'] && !indentedBefore && !indentedAfter then
    if breaks.isEmpty then [' '] else []
  else last

def readBlockBody (folded : Bool) (indent : Nat) : Nat → List Char → Cursor → BlockBody
  | 0, breaks, c => ⟨[], [], breaks, c⟩
  | fuel + 1, breaks, c =>
    if c.column ≠ indent ∨ c.rest.isEmpty then ⟨[], [], breaks, c⟩
    else
      let indentedBefore := c.next?.any isBlank
      let (line, c) := c.span (!isBreak ·)
      let last := (c.takeBreak?.map (·.1)).toList
      let (more, c) := blockBreaks indent (c.rest.length + 1) c.skipBreak
      if c.column ≠ indent ∨ c.rest.isEmpty then ⟨breaks ++ line, last, more, c⟩
      else
        let body := readBlockBody folded indent fuel more c
        { body with
          text := breaks ++ line ++ joinLines folded indentedBefore (c.next?.any isBlank) last more
            ++ body.text }

/-- A block. `parent` is the indentation around it. -/
def readBlock (folded : Bool) (parent : Int) (c : Cursor) : Except Fault (List Char × Cursor) := do
  let header ← readBlockHeader c.step
  let c ← header.cursor.finishLine
  let least := (max (parent + 1) 1).toNat
  let fuel := c.rest.length + 1
  let (breaks, indent, c) := match header.indent with
    | some n =>
      let indent := least + n - 1
      let (breaks, c) := blockBreaks indent fuel c
      (breaks, indent, c)
    | none =>
      let (breaks, widest, c) := blockStart fuel c
      (breaks, max least widest, c)
  let body := readBlockBody folded indent fuel breaks c
  let tail := match header.chomp with
    | .strip => []
    | .clip => body.last
    | .keep => body.last ++ body.breaks
  pure (body.text ++ tail, body.cursor)

end Neogrammar.Yaml
