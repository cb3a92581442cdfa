import Neogrammar.Yaml.ScalarText

/-!
# Tokens

A text is cut into tokens. In the block style indentation opens and closes collections, so the
tokens for that are put in between. What turns out to be a key only by the colon after it gets its
token afterwards; a token is therefore certain only when nothing can come before it any more. That
fixes which tokens come before a fault.
-/
namespace Neogrammar.Yaml

inductive TokenKind where
  | version (major : Nat)
  | tagHandle (handle expansion : String)
  /-- A directive without meaning here. -/
  | directive
  | documentStart
  | documentEnd
  | streamEnd
  | blockSequenceStart
  | blockMappingStart
  | blockEnd
  | flowSequenceStart
  | flowSequenceEnd
  | flowMappingStart
  | flowMappingEnd
  | blockEntry
  | flowEntry
  | key
  | value
  | alias (name : String)
  | anchor (name : String)
  | tag (handle : Option String) (suffix : String)
  | scalar (text : String) (plain : Bool)
  deriving DecidableEq, Repr

/-- A token with the line on which it starts. -/
structure Token where
  kind : TokenKind
  line : Nat
  deriving DecidableEq, Repr

/-- A token that may turn out to be a key: its number, and its place. A required one must. -/
structure PossibleKey where
  level : Int
  number : Nat
  required : Bool
  index : Nat
  line : Nat
  column : Nat
  deriving Repr

/-- The state of scanning; `queue` holds the tokens so far. -/
structure Scanner where
  cursor : Cursor
  queue : List Token
  /-- How many brackets are open; a stray closing bracket makes it negative. -/
  level : Int
  /-- The column of the innermost block collection. -/
  indent : Int
  outerIndents : List Int
  mayStartKey : Bool
  keys : List PossibleKey
  done : Bool

namespace Scanner

def start (text : List Char) : Scanner :=
  ⟨.start text, [], 0, -1, [], true, [], false⟩

def inFlow (s : Scanner) : Bool := s.level != 0

/-- Add a token that starts here. -/
def push (s : Scanner) (kind : TokenKind) : Scanner :=
  { s with queue := s.queue ++ [⟨kind, s.cursor.line⟩] }

def fault (s : Scanner) : Fault := s.cursor.fault

/-! ## Possible keys -/

/-- A key stands on one line and is not long. -/
def isStale (s : Scanner) (k : PossibleKey) : Bool :=
  k.line != s.cursor.line || s.cursor.index - k.index > 1024

/-- Forget what can no longer be a key. -/
def dropStale (s : Scanner) : Except Fault Scanner :=
  if s.keys.any fun k => s.isStale k && k.required then .error s.fault
  else .ok { s with keys := s.keys.filter fun k => !s.isStale k }

/-- Forget the possible key of this level. -/
def dropKey (s : Scanner) : Except Fault Scanner :=
  if s.keys.any fun k => k.level == s.level && k.required then .error s.fault
  else .ok { s with keys := s.keys.filter fun k => k.level != s.level }

/-- Note that the next token may turn out to be a key. -/
def saveKey (s : Scanner) : Except Fault Scanner :=
  if s.mayStartKey then do
    let required := !s.inFlow && s.indent == s.cursor.column
    let s ← s.dropKey
    pure { s with
      keys := s.keys ++ [⟨s.level, s.queue.length, required, s.cursor.index, s.cursor.line,
        s.cursor.column⟩] }
  else .ok s

/-- How many tokens are certain: those before the first that may still turn out to be a key. -/
def certain (s : Scanner) : Nat := (s.keys.map (·.number)).min?.getD s.queue.length

/-! ## Indentation -/

/-- Close the block collections that are indented more than a column. -/
def unwind (s : Scanner) (column : Int) : Scanner :=
  if s.inFlow then s
  else
    let rec close : List Int → Scanner → Scanner
      | [], s => s
      | outer :: rest, s =>
        if s.indent > column then
          close rest { s.push .blockEnd with indent := outer, outerIndents := rest }
        else s
    close s.outerIndents s

/-- Open a block collection at a column, if it is indented more than the one around it. -/
def opens (s : Scanner) (column : Nat) : Bool := s.indent < column

def indentTo (s : Scanner) (column : Nat) : Scanner :=
  { s with indent := column, outerIndents := s.indent :: s.outerIndents }

/-- Open a block collection here. -/
def openBlock (s : Scanner) (kind : TokenKind) : Scanner :=
  if s.opens s.cursor.column then (s.indentTo s.cursor.column).push kind else s

/-! ## Tokens of fixed form -/

/-- Go to the next character that belongs to a token, past spaces, comments and breaks. -/
def skipToToken : Nat → Scanner → Scanner
  | 0, s => s
  | fuel + 1, s =>
    let c := (s.cursor.skip isSpace).skipComment
    match c.takeBreak? with
    | none => { s with cursor := c }
    | some (_, c) =>
      skipToToken fuel { s with cursor := c, mayStartKey := s.mayStartKey || !s.inFlow }

/-- Take a token of some characters. -/
def take (s : Scanner) (kind : TokenKind) (length : Nat) : Scanner :=
  { s.push kind with cursor := s.cursor.advance length }

def takeEnd (s : Scanner) : Except Fault Scanner := do
  let s ← (s.unwind (-1)).dropKey
  pure { s.push .streamEnd with mayStartKey := false, keys := [], done := true }

def takeMarker (s : Scanner) (kind : TokenKind) : Except Fault Scanner := do
  let s ← (s.unwind (-1)).dropKey
  pure { s.take kind 3 with mayStartKey := false }

def takeOpening (s : Scanner) (kind : TokenKind) : Except Fault Scanner := do
  let s ← s.saveKey
  pure { s.take kind 1 with mayStartKey := true, level := s.level + 1 }

def takeClosing (s : Scanner) (kind : TokenKind) : Except Fault Scanner := do
  let s ← s.dropKey
  pure { s.take kind 1 with mayStartKey := false, level := s.level - 1 }

def takeComma (s : Scanner) : Except Fault Scanner := do
  let s ← s.dropKey
  pure { s.take .flowEntry 1 with mayStartKey := true }

def takeDash (s : Scanner) : Except Fault Scanner :=
  if !s.inFlow && !s.mayStartKey then .error s.fault
  else do
    let s := if s.inFlow then s else s.openBlock .blockSequenceStart
    let s ← s.dropKey
    pure { s.take .blockEntry 1 with mayStartKey := true }

def takeQuestion (s : Scanner) : Except Fault Scanner :=
  if !s.inFlow && !s.mayStartKey then .error s.fault
  else do
    let s := if s.inFlow then s else s.openBlock .blockMappingStart
    let s ← s.dropKey
    pure { s.take .key 1 with mayStartKey := !s.inFlow }

/-- Put the token of a key before the token that turned out to be one, and open a block mapping
there, if it is the first key. -/
def confirmKey (s : Scanner) (k : PossibleKey) : Scanner :=
  let s := { s with
    keys := s.keys.filter fun k => k.level != s.level
    queue := s.queue.insertIdx k.number ⟨.key, k.line⟩
    mayStartKey := false }
  if !s.inFlow && s.opens k.column then
    let s := s.indentTo k.column
    { s with queue := s.queue.insertIdx k.number ⟨.blockMappingStart, k.line⟩ }
  else s

def takeColon (s : Scanner) : Except Fault Scanner :=
  match s.keys.find? fun k => k.level == s.level with
  | some k => .ok ((s.confirmKey k).take .value 1)
  | none =>
    if !s.inFlow && !s.mayStartKey then .error s.fault
    else do
      let s := if s.inFlow then s else s.openBlock .blockMappingStart
      let s ← { s with mayStartKey := !s.inFlow }.dropKey
      pure (s.take .value 1)

/-! ## Directives, anchors and tags -/

/-- A name that is not empty. -/
def readName (c : Cursor) : Except Fault (List Char × Cursor) :=
  let (name, after) := c.span isNamePart
  if name.isEmpty then .error c.fault else .ok (name, after)

/-- What may follow an anchor or alias. -/
def endsAnchor : Option Char → Bool
  | none => true
  | some c => endsWord (some c) || "?:,]\x7d%@\x60".toList.contains c

def takeAnchor (s : Scanner) (kind : String → TokenKind) : Except Fault Scanner := do
  let s ← s.saveKey
  let (name, c) ← readName s.cursor.step
  if endsAnchor c.next? then
    pure { s.push (kind (String.ofList name)) with cursor := c, mayStartKey := false }
  else .error c.fault

def isAddressPart (c : Char) : Bool :=
  isNamePart c || ";/?:@&=+$,.!~*'()[]".toList.contains c

/-- Hexadecimal escapes of one character after another, as the bytes that they give. -/
def readEscapedBytes : Nat → Cursor → Except Fault (List Nat × Cursor)
  | 0, c => .ok ([], c)
  | fuel + 1, c =>
    if c.next? == some '%' then
      match hexNumeral? 2 c.step.rest with
      | none => .error c.step.fault
      | some byte => do
        let (more, c) ← readEscapedBytes fuel (c.advance 3)
        pure (byte :: more, c)
    else .ok ([], c)

/-- The address part of a tag, which is not empty; percent signs escape bytes. -/
def readAddress : Nat → Cursor → Except Fault (List Char × Cursor)
  | 0, c => .ok ([], c)
  | fuel + 1, c =>
    let (plain, c) := c.span isAddressPart
    if c.next? == some '%' then do
      let (bytes, after) ← readEscapedBytes (c.rest.length + 1) c
      match String.fromUTF8? ⟨(bytes.map Nat.toUInt8).toArray⟩ with
      | none => .error c.fault
      | some s => do
        let (more, c) ← readAddress fuel after
        pure (plain ++ s.toList ++ more, c)
    else .ok (plain, c)

def readAddressOf (c : Cursor) : Except Fault (String × Cursor) := do
  let (address, after) ← readAddress (c.rest.length + 1) c
  if after.index == c.index then .error c.fault else pure (String.ofList address, after)

/-- A tag handle: one exclamation mark, or a name between two. -/
def readHandle (c : Cursor) : Except Fault (String × Cursor) :=
  if c.next? != some '!' then .error c.fault
  else if c.at? 1 == some ' ' then .ok ("!", c.step)
  else
    let (name, after) := c.step.span isNamePart
    if after.next? == some '!' then .ok ("!" ++ String.ofList name ++ "!", after.step)
    else .error after.fault

/-- The handle and the suffix of a tag. -/
def readTag (c : Cursor) : Except Fault ((Option String × String) × Cursor) :=
  match c.at? 1 with
  | some '<' => do
    let (suffix, after) ← readAddressOf (c.advance 2)
    if after.next? == some '>' then pure ((none, suffix), after.step) else .error after.fault
  | next =>
    if endsWord next then .ok ((none, "!"), c.step)
    else do
      let item := c.step.rest.takeWhile fun ch => !endsItem (some ch)
      let (handle, after) ← if item.contains '!' then readHandle c else pure ("!", c.step)
      let (suffix, after) ← readAddressOf after
      pure ((some handle, suffix), after)

def takeTag (s : Scanner) : Except Fault Scanner := do
  let s ← s.saveKey
  let ((handle, suffix), c) ← readTag s.cursor
  if endsItem c.next? then
    pure { s.push (.tag handle suffix) with cursor := c, mayStartKey := false }
  else .error c.fault

def readNatural (c : Cursor) : Except Fault (Nat × Cursor) :=
  let (digits, after) := c.span Char.isDigit
  if digits.isEmpty then .error c.fault
  else if Text.digitLimit < digits.length then .error (.tooLong digits.length)
  else .ok (Json.digitsValue digits, after)

def readVersion (c : Cursor) : Except Fault (TokenKind × Cursor) := do
  let (major, c) ← readNatural (c.skip isSpace)
  if c.next? != some '.' then .error c.fault
  else do
    let (_, c) ← readNatural c.step
    if endsItem c.next? then pure (.version major, c) else .error c.fault

def readTagHandle (c : Cursor) : Except Fault (TokenKind × Cursor) := do
  let (handle, c) ← readHandle (c.skip isSpace)
  if c.next? != some ' ' then .error c.fault
  else do
    let (expansion, c) ← readAddressOf (c.skip isSpace)
    if endsItem c.next? then pure (.tagHandle handle expansion, c) else .error c.fault

def takeDirective (s : Scanner) : Except Fault Scanner := do
  let s ← (s.unwind (-1)).dropKey
  let (name, c) ← readName s.cursor.step
  if !endsItem c.next? then .error c.fault
  else do
    let (kind, c) ←
      if name == "YAML".toList then readVersion c
      else if name == "TAG".toList then readTagHandle c
      else pure (.directive, c.skip (!isBreak ·))
    let c ← c.finishLine
    pure { s.push kind with cursor := c, mayStartKey := false }

/-! ## Scalars -/

def takePlain (s : Scanner) : Except Fault Scanner := do
  let s ← s.saveKey
  let c := s.cursor
  let p := readPlain s.inFlow (s.indent + 1) (c.rest.length + 1) [] false c
  pure { s.push (.scalar (String.ofList p.text) true) with
    cursor := p.cursor, mayStartKey := p.crossed }

def takeQuoted (s : Scanner) (double : Bool) : Except Fault Scanner := do
  let s ← s.saveKey
  let (text, c) ← readQuoted double s.cursor
  pure { s.push (.scalar (String.ofList text) false) with cursor := c, mayStartKey := false }

def takeBlock (s : Scanner) (folded : Bool) : Except Fault Scanner := do
  let s ← { s with mayStartKey := true }.dropKey
  let (text, c) ← readBlock folded s.indent s.cursor
  pure { s.push (.scalar (String.ofList text) false) with cursor := c }

/-- Whether a plain scalar may start with a character. -/
def startsPlain (s : Scanner) (c : Char) : Bool :=
  !(isBlank c || isBreak c || "-?:,[]\x7b\x7d#&*!|>'\"%@\x60".toList.contains c)
    || (!endsWord (s.cursor.at? 1) && (c == '-' || (!s.inFlow && (c == '?' || c == ':'))))

/-- Whether the sign here stands alone, which brackets make needless. -/
def standsAlone (s : Scanner) : Bool := s.inFlow || endsWord (s.cursor.at? 1)

/-- Take the token that starts with a character. -/
def takeAt (s : Scanner) (c : Char) : Except Fault Scanner :=
  let first := s.cursor.column == 0
  if c == '%' && first then s.takeDirective
  else if c == '-' && first && s.cursor.atTriple '-' then s.takeMarker .documentStart
  else if c == '.' && first && s.cursor.atTriple '.' then s.takeMarker .documentEnd
  else if c == '[' then s.takeOpening .flowSequenceStart
  else if c == '\x7b' then s.takeOpening .flowMappingStart
  else if c == ']' then s.takeClosing .flowSequenceEnd
  else if c == '\x7d' then s.takeClosing .flowMappingEnd
  else if c == ',' then s.takeComma
  else if c == '-' && endsWord (s.cursor.at? 1) then s.takeDash
  else if c == '?' && s.standsAlone then s.takeQuestion
  else if c == ':' && s.standsAlone then s.takeColon
  else if c == '*' then s.takeAnchor .alias
  else if c == '&' then s.takeAnchor .anchor
  else if c == '!' then s.takeTag
  else if c == '|' && !s.inFlow then s.takeBlock false
  else if c == '>' && !s.inFlow then s.takeBlock true
  else if c == '\'' then s.takeQuoted false
  else if c == '"' then s.takeQuoted true
  else if s.startsPlain c then s.takePlain
  else .error s.fault

/-- Go to the next token and close the block collections that end before it. -/
def settle (s : Scanner) : Except Fault Scanner := do
  let s ← (s.skipToToken (s.cursor.rest.length + 1)).dropStale
  pure (s.unwind s.cursor.column)

/-- Take the token that comes next. -/
def takeNext (s : Scanner) : Except Fault Scanner :=
  match s.cursor.next? with
  | none => s.takeEnd
  | some c => s.takeAt c

end Scanner

/-- The tokens of a text, up to the fault that ends them, if any does. -/
structure Tokens where
  tokens : List Token
  fault : Option Fault
  deriving Repr

namespace Scanner

/-- Scan to the end. Before a fault come the tokens that were certain. Every step takes a character
or ends the text. -/
def tokens : Nat → Nat → Scanner → Tokens
  | 0, certain, s => ⟨s.queue.take certain, none⟩
  | fuel + 1, certain, s =>
    if s.done then ⟨s.queue, none⟩
    else
      match s.dropStale with
      | .error f => ⟨s.queue.take certain, some f⟩
      | .ok s =>
        match s.settle >>= takeNext with
        | .error f => ⟨s.queue.take s.certain, some f⟩
        | .ok next => tokens fuel s.certain next

end Scanner

/-- The tokens of a text. A mark of byte order at its start is skipped. -/
def Tokens.ofText (text : List Char) : Tokens :=
  let s := Scanner.start text
  let s := if text.head? == some '\ufeff' then { s with cursor := s.cursor.step } else s
  s.tokens (text.length + 2) 0

end Neogrammar.Yaml
