import Neogrammar.Pattern.Reader
import Neogrammar.Text.Names

/-!
# Reading patterns

Alternatives are sequences parted by bars, a sequence is made of items, and an item may be repeated.
Reading keeps the groups seen so far: how wide each is once closed, their names, and the references
that can only be settled at the end.
-/
namespace Neogrammar.Pattern

/-- The modes that are in force at a place of a pattern. -/
structure Modes where
  ignoreCase : Bool
  multiline : Bool
  dotAll : Bool
  verbose : Bool
  ascii : Bool
  unicode : Bool
  noRepeats : Bool
  deriving DecidableEq, Repr

namespace Modes

def none : Modes := ⟨false, false, false, false, false, false, false⟩

def fold (m : Modes) : Fold :=
  if m.ignoreCase then if m.ascii then .ascii else .unicode else .exact

/-- Switch one mode by its letter. The two alphabets exclude each other only where a group sets
one of them. -/
def switch (m : Modes) (on : Bool) : Char → Modes
  | 'i' => { m with ignoreCase := on }
  | 'm' => { m with multiline := on }
  | 's' => { m with dotAll := on }
  | 'x' => { m with verbose := on }
  | 'a' => { m with ascii := on }
  | 'u' => { m with unicode := on }
  | 't' => { m with noRepeats := on }
  | _ => m

/-- The modes inside a group that switches some on and some off. -/
def within (m : Modes) (on off : List Char) : Modes :=
  let base := if on.contains 'a' || on.contains 'u' then { m with ascii := false, unicode := false }
    else m
  off.foldl (fun m c => m.switch false c) (on.foldl (fun m c => m.switch true c) base)

end Modes

/-- The groups of a pattern as far as it is read. -/
structure Groups where
  /-- The span of each closed group; group 0 is the whole pattern and never closed. -/
  widths : List (Option (Nat × Nat))
  names : List (String × Nat)
  /-- How many groups there were when the outermost open lookbehind began. -/
  behind : Option Nat
  /-- Groups that a branch depends on, with the position of the first mention. -/
  mentions : List (Nat × Nat)
  deriving DecidableEq, Repr

namespace Groups

def start : Groups := ⟨[none], [], none, []⟩

def count (g : Groups) : Nat := g.widths.length

def isClosed (g : Groups) (n : Nat) : Bool := (g.widths[n]?.join).isSome

def widthOf (g : Groups) (n : Nat) : Nat × Nat := (g.widths[n]?.join).getD (0, 0)

def close (g : Groups) (n : Nat) (width : Nat × Nat) : Groups :=
  { g with widths := g.widths.set n (some width) }

/-- Inside a lookbehind, only groups closed before it may be referred to. -/
def checkBehind (g : Groups) (n : Nat) (r : Reader) : Except Refusal Unit :=
  match g.behind with
  | none => .ok ()
  | some count =>
    if !g.isClosed n then r.fail .openGroup 0
    else if n ≥ count then r.fail .groupInLookbehind 0
    else .ok ()

/-- Open the next group. -/
def opened (g : Groups) (name : Option String) (r : Reader) : Except Refusal (Nat × Groups) :=
  let n := g.count
  let g' := { g with widths := g.widths ++ [none] }
  match name with
  | none => .ok (n, g')
  | some name =>
    match g.names.lookup name with
    | some former => r.fail (.redefinedGroup name n former) (name.length + 1)
    | none => .ok (n, { g' with names := g.names ++ [(name, n)] })

end Groups

/-- What a repeat mark needs to know of the item before it. -/
inductive ItemKind where
  | plain
  | anchor
  | repeated
  deriving DecidableEq, Repr

/-- The escapes that stand for classes. -/
def classEscape? (ascii : Bool) : Char → Option CharClass
  | 'd' => some ⟨.digit, false, ascii⟩
  | 'D' => some ⟨.digit, true, ascii⟩
  | 's' => some ⟨.space, false, ascii⟩
  | 'S' => some ⟨.space, true, ascii⟩
  | 'w' => some ⟨.word, false, ascii⟩
  | 'W' => some ⟨.word, true, ascii⟩
  | _ => none

def anchorEscape? (ascii : Bool) : Char → Option Anchor
  | 'A' => some .start
  | 'Z' => some .finish
  | 'b' => some (.wordEdge ascii)
  | 'B' => some (.notWordEdge ascii)
  | _ => none

/-- The text of an escape: its letter and the digits read after it. -/
def escapeText (letter : Char) (digits : List Char) : String :=
  String.ofList ('\\' :: letter :: digits)

/-- Escapes by code or name: `\x`, `\u` and `\U` with a fixed count of digits, and `\N`. -/
def codeEscape? (letter : Char) (r : Reader) : Option (Except Refusal (Nat × Reader)) :=
  let digits (count : Nat) : Except Refusal (Nat × Reader) := do
    let (digits, r) ← r.takeWhile isHex count
    if digits.length = count then
      let c := numeral 16 digits
      if c ≥ Text.codeLimit then .error .codeTooLarge
      else if c > 0x10FFFF then r.fail (.badEscape (escapeText letter digits)) (count + 2)
      else pure (c, r)
    else r.fail (.incompleteEscape (escapeText letter digits)) (digits.length + 2)
  match letter with
  | 'x' => some (digits 2)
  | 'u' => some (digits 4)
  | 'U' => some (digits 8)
  | 'N' => some do
    let (opened, r) ← r.accept '\x7b'
    if !opened then r.fail (.missing "\x7b") 0
    else
      let (name, r) ← r.name '\x7d' "character name"
      match Text.characterNamed? name with
      | some c => pure (c, r)
      | none => r.fail (.undefinedCharacter name) (name.length + 4)
  | _ => none

/-- Up to two more octal digits after the letter of an escape. -/
def octalEscape (letter : Char) (r : Reader) : Except Refusal (Nat × Reader) := do
  let (digits, r) ← r.takeWhile isOctal 2
  let c := numeral 8 (letter :: digits)
  if c > 0o377 then
    r.fail (.octalOutOfRange (escapeText letter digits)) (digits.length + 2)
  else pure (c, r)

/-- An escape inside a set; the reader stands after its letter. -/
def setEscape (m : Modes) (letter : Char) (r : Reader) : Except Refusal (SetItem × Reader) :=
  match controlEscape? letter with
  | some c => .ok (.single c, r)
  | none =>
    match classEscape? m.ascii letter with
    | some k => .ok (.kind k, r)
    | none =>
      match codeEscape? letter r with
      | some result => do
        let (c, r) ← result
        pure (.single c, r)
      | none =>
        if isOctal letter then do
          let (c, r) ← octalEscape letter r
          pure (.single c, r)
        else if letter.isDigit || isAsciiAlpha letter then
          r.fail (.badEscape (escapeText letter [])) 2
        else .ok (.single letter.toNat, r)

/-- A reference to a group by number. -/
def reference (m : Modes) (g : Groups) (n digits : Nat) (r : Reader) :
    Except Refusal (Node × Reader) := do
  if n < g.count then
    if !g.isClosed n then r.fail .openGroup (digits + 1)
    else do
      g.checkBehind n r
      pure (.reference n m.fold, r)
  else r.fail (.invalidReference n) digits

/-- An escape that starts with a digit from 1 to 9: three octal digits make a character, anything
else is a reference. -/
def numberEscape (m : Modes) (g : Groups) (letter : Char) (r : Reader) :
    Except Refusal (Node × Reader) :=
  match r.next with
  | some (.plain d) =>
    if d.isDigit then do
      let r ← r.advance
      match r.next with
      | some (.plain e) =>
        if isOctal letter && isOctal d && isOctal e then do
          let r ← r.advance
          let c := numeral 8 [letter, d, e]
          if c > 0o377 then r.fail (.octalOutOfRange (escapeText letter [d, e])) 4
          else pure (.char (.literal c m.fold), r)
        else reference m g (numeral 10 [letter, d]) 2 r
      | _ => reference m g (numeral 10 [letter, d]) 2 r
    else reference m g (numeral 10 [letter]) 1 r
  | _ => reference m g (numeral 10 [letter]) 1 r

/-- An escape outside sets; the reader stands after its letter. -/
def itemEscape (m : Modes) (g : Groups) (letter : Char) (r : Reader) :
    Except Refusal (Node × ItemKind × Reader) :=
  match anchorEscape? m.ascii letter with
  | some place => .ok (.anchor place, .anchor, r)
  | none =>
    match classEscape? m.ascii letter with
    | some k => .ok (.char (.set false [.kind k] .exact), .plain, r)
    | none =>
      match controlEscape? letter with
      | some c => .ok (.char (.literal c m.fold), .plain, r)
      | none =>
        match codeEscape? letter r with
        | some result => do
          let (c, r) ← result
          pure (.char (.literal c m.fold), .plain, r)
        | none =>
          if letter = '0' then do
            let (c, r) ← octalEscape letter r
            pure (.char (.literal c m.fold), .plain, r)
          else if letter.isDigit then do
            let (node, r) ← numberEscape m g letter r
            pure (node, .plain, r)
          else if isAsciiAlpha letter then r.fail (.badEscape (escapeText letter [])) 2
          else .ok (.char (.literal letter.toNat m.fold), .plain, r)

/-- One end of a range, or a lone member of a set. -/
def setMember (m : Modes) (symbol : Symbol) (r : Reader) : Except Refusal (SetItem × Reader) :=
  match symbol with
  | .plain c => .ok (.single c.toNat, r)
  | .escaped c => setEscape m c r

/-- The members of a set up to its closing bracket. `here` is the position of the opening bracket,
and `items` are the members so far, the latest first. -/
def setItems (m : Modes) (here : Nat) :
    Nat → List SetItem → Reader → Except Refusal (List SetItem × Reader)
  | 0, _, r => r.fail .unterminatedSet (r.position - here)
  | fuel + 1, items, r =>
    match r.next with
    | none => r.fail .unterminatedSet (r.position - here)
    | some low => do
      let r ← r.advance
      if low = .plain ']' ∧ items ≠ [] then pure (items.reverse, r)
      else do
        let (first, r) ← setMember m low r
        let (dash, r) ← r.accept '-'
        if !dash then setItems m here fuel (first :: items) r
        else
          match r.next with
          | none => r.fail .unterminatedSet (r.position - here)
          | some high => do
            let r ← r.advance
            if high = .plain ']' then
              pure ((.single '-'.toNat :: first :: items).reverse, r)
            else do
              let (last, r) ← setMember m high r
              match first, last with
              | .single a, .single b =>
                if b < a then
                  r.fail (.badRange low.text high.text) (low.length + 1 + high.length)
                else setItems m here fuel (.range a b :: items) r
              | _, _ => r.fail (.badRange low.text high.text) (low.length + 1 + high.length)

/-- A set; the reader stands after the opening bracket. -/
def set (m : Modes) (r : Reader) : Except Refusal (CharTest × Reader) := do
  let here := r.position - 1
  let (negated, r) ← r.accept '^'
  let (items, r) ← setItems m here (r.rest.length + 1) [] r
  pure (.ofItems negated items m.fold, r)

/-- The bounds of a repeat. -/
structure Bounds where
  low : Nat
  high : Option Nat
  deriving DecidableEq, Repr

/-- The least count of rounds that is too large to be asked for. -/
def repetitionLimit : Nat := 1 <<< 32 - 1

/-- A bound of a repeat, if one is written. -/
def repeatBound (digits : List Char) : Except Refusal (Option Nat) :=
  if digits.isEmpty then .ok none
  else if digits.length > Text.digitLimit then .error (.numeralTooLong digits.length)
  else if numeral 10 digits ≥ repetitionLimit then .error .repetitionTooLarge
  else .ok (some (numeral 10 digits))

/-- Bounds in braces; the reader stands after the opening one. There is no result where the braces
are not of this form, and the brace is then an ordinary character. -/
def bracedBounds (r : Reader) : Except Refusal (Option (Bounds × Reader)) := do
  let here := r.position
  if r.sees '\x7d' then pure none
  else do
    let (low, r) ← r.takeWhile Char.isDigit r.rest.length
    let (comma, r) ← r.accept ','
    let (high, r) ← if comma then r.takeWhile Char.isDigit r.rest.length else pure (low, r)
    let (closed, r) ← r.accept '\x7d'
    if !closed then pure none
    else do
      let least ← repeatBound low
      let most ← repeatBound high
      match most with
      | none => pure (some (⟨least.getD 0, none⟩, r))
      | some n =>
        if n < least.getD 0 then r.fail .repeatBounds (r.position - here)
        else pure (some (⟨least.getD 0, some n⟩, r))

/-- Join a sequence whose items are given latest first. -/
def joinItems (items : List (Node × ItemKind)) : Node :=
  match items.map (·.1) with
  | [] => .empty
  | last :: rest => rest.foldl (fun tail node => .seq node tail) last

/-- Repeat the latest item. `here` is the position after the repeat mark. -/
def repeatLast (bounds : Bounds) (here : Nat) (items : List (Node × ItemKind)) (r : Reader) :
    Except Refusal (List (Node × ItemKind) × Reader) :=
  match items with
  | [] => r.fail .nothingToRepeat (r.position - here + 1)
  | (_, .anchor) :: _ => r.fail .nothingToRepeat (r.position - here + 1)
  | (_, .repeated) :: _ => r.fail .multipleRepeat (r.position - here + 1)
  | (node, .plain) :: rest => do
    let (lazy, r) ← r.accept '?'
    let (possessive, r) ← if lazy then pure (false, r) else r.accept '+'
    let greed := if lazy then .lazy else if possessive then .possessive else .greedy
    pure ((.repeat greed bounds.low bounds.high node, .repeated) :: rest, r)

def modeLetters : List Char := ['i', 'L', 'm', 's', 'x', 'a', 't', 'u']

def isAlphabetLetter (c : Char) : Bool := c == 'a' || c == 'u' || c == 'L'

/-- A symbol that is a mode letter. -/
def modeLetter? : Symbol → Option Char
  | .plain c => if modeLetters.contains c then some c else none
  | .escaped _ => none

/-- What is wrong with a symbol in the place of a mode letter. -/
def modeFault (symbol : Symbol) (missing : String) : Cause :=
  match symbol with
  | .plain c => if Text.isLetter c.toNat then .unknownFlag else .missing missing
  | .escaped _ => .missing missing

/-- Letters of modes to switch on, from `letter` on, up to the character that ends them. -/
def modesOn : Nat → List Char → Char → Reader → Except Refusal (List Char × Char × Reader)
  | 0, _, _, r => r.fail (.missing "-, : or )") 0
  | fuel + 1, on, letter, r =>
    if letter = 'L' then r.fail .localeFlag 0
    else
      let on := on ++ [letter]
      if isAlphabetLetter letter && on.any (fun c => isAlphabetLetter c && c != letter) then
        r.fail .rivalFlags 0
      else
        match r.next with
        | none => r.fail (.missing "-, : or )") 0
        | some symbol => do
          let r ← r.advance
          match symbol with
          | .plain ')' => pure (on, ')', r)
          | .plain '-' => pure (on, '-', r)
          | .plain ':' => pure (on, ':', r)
          | symbol =>
            match modeLetter? symbol with
            | some letter => modesOn fuel on letter r
            | none => r.fail (modeFault symbol "-, : or )") symbol.length

/-- Letters of modes to switch off, from `letter` on, up to the colon. -/
def modesOff : Nat → List Char → Char → Reader → Except Refusal (List Char × Reader)
  | 0, _, _, r => r.fail (.missing ":") 0
  | fuel + 1, off, letter, r =>
    if isAlphabetLetter letter then r.fail .rivalFlagsOff 0
    else
      let off := off ++ [letter]
      match r.next with
      | none => r.fail (.missing ":") 0
      | some symbol => do
        let r ← r.advance
        if symbol = .plain ':' then pure (off, r)
        else
          match modeLetter? symbol with
          | some letter => modesOff fuel off letter r
          | none => r.fail (modeFault symbol ":") symbol.length

/-- What a mode group asks for. -/
inductive ModeSwitch where
  | whole (on : List Char)
  | scoped (on off : List Char)
  deriving DecidableEq, Repr

/-- Read the letters of a mode group; the reader stands after the first of them. -/
def modeSwitch (first : Char) (r : Reader) : Except Refusal (ModeSwitch × Reader) := do
  let (on, stop, r) ← if first = '-' then pure ([], '-', r)
    else modesOn (r.rest.length + 1) [] first r
  if stop = ')' then pure (.whole on, r)
  else if on.contains 't' then r.fail .globalFlagOn 1
  else if stop = ':' then pure (.scoped on [], r)
  else
    match r.next with
    | none => r.fail (.missing "flag") 0
    | some symbol => do
      let r ← r.advance
      match modeLetter? symbol with
      | none => r.fail (modeFault symbol "flag") symbol.length
      | some letter => do
        let (off, r) ← modesOff (r.rest.length + 1) [] letter r
        if off.contains 't' then r.fail .globalFlagOff 1
        else if on.any off.contains then r.fail .flagOnAndOff 1
        else pure (.scoped on off, r)

/-- A group name, which must be an identifier. -/
def checkName (name : String) (r : Reader) : Except Refusal Unit :=
  if Text.isIdentifier name.toList then .ok ()
  else r.fail (.badGroupName name) (name.length + 1)

/-- The largest number a group may have, plus one. -/
def groupLimit : Nat := 1073741823

/-- The group that a branch depends on, by name or number. -/
def branchGroup (g : Groups) (name : String) (r : Reader) : Except Refusal (Nat × Groups) :=
  if Text.isIdentifier name.toList then
    match g.names.lookup name with
    | some n => .ok (n, g)
    | none => r.fail (.unknownGroupName name) (name.length + 1)
  else
    match Text.readInt name with
    | .ok (.ofNat n) =>
      if n = 0 then r.fail .badGroupNumber (name.length + 1)
      else if n ≥ groupLimit then r.fail (.invalidReference n) (name.length + 1)
      else
        .ok (n, if g.mentions.any (·.1 == n) then g
          else { g with mentions := g.mentions ++ [(n, r.position - name.length - 1)] })
    | _ => r.fail (.badGroupName name) (name.length + 1)

/-- How a group begins. -/
inductive Opening where
  | capture (name : Option String)
  | scoped (on off : List Char)
  | atomic
  | ahead (negated : Bool)
  | behind (negated : Bool)
  | branch (name : String)
  | reference (name : String)
  | comment
  | modes (on : List Char)
  deriving DecidableEq, Repr

/-- The beginning of a group whose letter is `P`. -/
def namedOpening (r : Reader) : Except Refusal (Opening × Reader) := do
  let (named, r) ← r.accept '<'
  if named then do
    let (name, r) ← r.name '>' "group name"
    checkName name r
    pure (.capture (some name), r)
  else do
    let (refers, r) ← r.accept '='
    if refers then do
      let (name, r) ← r.name ')' "group name"
      checkName name r
      pure (.reference name, r)
    else
      match r.next with
      | none => r.fail .unexpectedEnd 0
      | some symbol => do
        let r ← r.advance
        r.fail (.unknownExtension ("P" ++ symbol.text)) (symbol.length + 2)

/-- The beginning of a group; the reader stands after the opening bracket. -/
def opening (r : Reader) : Except Refusal (Opening × Reader) := do
  let start := r.position - 1
  let (special, r) ← r.accept '?'
  if !special then pure (.capture none, r)
  else
    match r.next with
    | none => r.fail .unexpectedEnd 0
    | some symbol => do
      let r ← r.advance
      match symbol with
      | .plain 'P' => namedOpening r
      | .plain ':' => pure (.scoped [] [], r)
      | .plain '#' => do
        let (closed, r) ← r.skipPast ')' (r.rest.length + 1)
        if closed then pure (.comment, r)
        else r.fail .unterminatedComment (r.position - start)
      | .plain '=' => pure (.ahead false, r)
      | .plain '!' => pure (.ahead true, r)
      | .plain '<' =>
        match r.next with
        | none => r.fail .unexpectedEnd 0
        | some symbol => do
          let r ← r.advance
          match symbol with
          | .plain '=' => pure (.behind false, r)
          | .plain '!' => pure (.behind true, r)
          | symbol => r.fail (.unknownExtension ("<" ++ symbol.text)) (symbol.length + 2)
      | .plain '(' => do
        let (name, r) ← r.name ')' "group name"
        pure (.branch name, r)
      | .plain '>' => pure (.atomic, r)
      | symbol =>
        let letter := if symbol = .plain '-' then some '-' else modeLetter? symbol
        match letter with
        | none => r.fail (.unknownExtension symbol.text) (symbol.length + 1)
        | some letter => do
          let (modes, r) ← modeSwitch letter r
          match modes with
          | .whole on => pure (.modes on, r)
          | .scoped on off => pure (.scoped on off, r)

/-- Step over the closing bracket of a group that began at `start`. -/
def closing (start : Nat) (r : Reader) : Except Refusal Reader := do
  let (closed, r) ← r.accept ')'
  if closed then pure r else r.fail .unterminatedGroup (r.position - start)

/-- A part of a pattern that has been read, and what reading leaves behind. -/
structure Parsed where
  node : Node
  modes : Modes
  groups : Groups
  reader : Reader

def isPatternBlank (c : Char) : Bool :=
  c == ' ' || c == '\t' || c == '\n' || c == '\r' || c == '\x0b' || c == '\x0c'

mutual

/-- Alternatives up to the end of the text or a closing bracket. Mode letters for the whole pattern
may open the first alternative where `top` is set, and hold for the later ones too. -/
def alternatives : Nat → Bool → Modes → Groups → Reader → Except Refusal Parsed
  | 0, _, m, g, r => .ok ⟨.empty, m, g, r⟩
  | fuel + 1, top, m, g, r => do
    let first ← sequence fuel top m g [] r
    let (bar, r) ← first.reader.accept '|'
    if bar then do
      let rest ← alternatives fuel false first.modes first.groups r
      pure { rest with node := .alt first.node rest.node }
    else pure { first with reader := r }

/-- Items up to a bar, a closing bracket or the end of the text; `items` are those read so far,
the latest first. -/
def sequence : Nat → Bool → Modes → Groups → List (Node × ItemKind) → Reader → Except Refusal Parsed
  | 0, _, m, g, items, r => .ok ⟨joinItems items, m, g, r⟩
  | fuel + 1, top, m, g, items, r =>
    match r.next with
    | none => .ok ⟨joinItems items, m, g, r⟩
    | some (.escaped c) => do
      let r ← r.advance
      let (node, kind, r) ← itemEscape m g c r
      sequence fuel top m g ((node, kind) :: items) r
    | some (.plain c) =>
      if c = '|' ∨ c = ')' then .ok ⟨joinItems items, m, g, r⟩
      else do
        let r ← r.advance
        if m.verbose && isPatternBlank c then sequence fuel top m g items r
        else if m.verbose && c == '#' then do
          let (_, r) ← r.skipPast '\n' (r.rest.length + 1)
          sequence fuel top m g items r
        else if c = '[' then do
          let (test, r) ← set m r
          sequence fuel top m g ((.char test, .plain) :: items) r
        else if c = '?' then do
          let (items, r) ← repeatLast ⟨0, some 1⟩ r.position items r
          sequence fuel top m g items r
        else if c = '*' then do
          let (items, r) ← repeatLast ⟨0, none⟩ r.position items r
          sequence fuel top m g items r
        else if c = '+' then do
          let (items, r) ← repeatLast ⟨1, none⟩ r.position items r
          sequence fuel top m g items r
        else if c = '\x7b' then do
          match ← bracedBounds r with
          | none => sequence fuel top m g ((.char (.literal c.toNat m.fold), .plain) :: items) r
          | some (bounds, r') => do
            let (items, r) ← repeatLast bounds r.position items r'
            sequence fuel top m g items r
        else if c = '.' then
          sequence fuel top m g
            ((.char (if m.dotAll then .any else .notNewline), .plain) :: items) r
        else if c = '^' then
          sequence fuel top m g
            ((.anchor (if m.multiline then .lineStart else .start), .anchor) :: items) r
        else if c = '$' then
          sequence fuel top m g
            ((.anchor (if m.multiline then .lineEnd else .beforeFinalNewline), .anchor) :: items) r
        else if c = '(' then bracket fuel top m g items r
        else sequence fuel top m g ((.char (.literal c.toNat m.fold), .plain) :: items) r

/-- A bracketed item and what follows it; the reader stands after the opening bracket. -/
def bracket : Nat → Bool → Modes → Groups → List (Node × ItemKind) → Reader → Except Refusal Parsed
  | 0, _, m, g, items, r => .ok ⟨joinItems items, m, g, r⟩
  | fuel + 1, top, m, g, items, r => do
    let start := r.position - 1
    let (kind, r) ← opening r
    match kind with
    | .comment => sequence fuel top m g items r
    | .modes on =>
      if !top || !items.isEmpty then r.fail .lateFlags (r.position - start)
      else sequence fuel top (on.foldl (fun m c => m.switch true c) m) g items r
    | .reference name =>
      match g.names.lookup name with
      | none => r.fail (.unknownGroupName name) (name.length + 1)
      | some n =>
        if !g.isClosed n then r.fail .openGroup (name.length + 1)
        else do
          g.checkBehind n r
          sequence fuel top m g ((.reference n m.fold, .plain) :: items) r
    | .branch name => do
      let (n, g) ← branchGroup g name r
      g.checkBehind n r
      let yes ← sequence fuel false m g [] r
      let (bar, r) ← yes.reader.accept '|'
      let no ← if bar then sequence fuel false m yes.groups [] r
        else pure ⟨.empty, m, yes.groups, r⟩
      if bar && no.reader.sees '|' then no.reader.fail .thirdBranch 0
      else do
        let r ← closing start no.reader
        sequence fuel top m no.groups ((.branch n yes.node no.node, .plain) :: items) r
    | .ahead negated => do
      let body ← alternatives fuel false m g r
      let r ← closing start body.reader
      sequence fuel top m body.groups ((.ahead negated body.node, .plain) :: items) r
    | .behind negated => do
      let body ← alternatives fuel false m { g with behind := g.behind.or (some g.count) } r
      let r ← closing start body.reader
      let width := body.node.width body.groups.widthOf
      sequence fuel top m { body.groups with behind := g.behind }
        ((.behind negated width body.node, .plain) :: items) r
    | .atomic => do
      let body ← alternatives fuel false m g r
      let r ← closing start body.reader
      sequence fuel top m body.groups ((.atomic body.node, .plain) :: items) r
    | .scoped on off => do
      let body ← alternatives fuel false (m.within on off) g r
      let r ← closing start body.reader
      sequence fuel top m body.groups ((body.node, .plain) :: items) r
    | .capture name => do
      let (n, g) ← g.opened name r
      let body ← alternatives fuel false m g r
      let r ← closing start body.reader
      sequence fuel top m (body.groups.close n (body.node.width body.groups.widthOf))
        ((.group n body.node, .plain) :: items) r

end

/-- A pattern that has been read: its tree, how many groups it has, and their names. -/
structure Compiled where
  root : Node
  groups : Nat
  names : List (String × Nat)
  deriving DecidableEq, Repr

/-- The branch that depends on a group which does not exist, if there is one. -/
def danglingMention? (g : Groups) : Option (Nat × Nat) := g.mentions.find? fun m => m.1 ≥ g.count

/-- Read a pattern. -/
def parse (s : List Char) : Except Refusal Compiled := do
  let r ← Reader.start s
  let p ← alternatives (4 * s.length + 4) true .none .start r
  if p.modes.ascii && p.modes.unicode then .error .rivalAlphabets
  else if !p.reader.rest.isEmpty then p.reader.fail .unbalanced 0
  else
    match danglingMention? p.groups with
    | some (n, position) => faultAt position 0 (.invalidReference n)
    | none =>
      match p.node.defect? p.modes.noRepeats with
      | some cause => .error (.fault ⟨cause, none⟩)
      | none => .ok ⟨p.node, p.groups.count - 1, p.groups.names⟩

end Neogrammar.Pattern
