import Neogrammar.Yaml.Token

/-!
# Nodes

Tokens are joined to a tree of scalars, sequences and mappings. Every node has a tag, as far as one
is written, and the line on which it starts. An alias stands for the node that has its anchor;
within that node itself it stands for the node without its content.
-/
namespace Neogrammar.Yaml

/-- How the kind of a node's value is known. -/
inductive Tag where
  /-- Found out from the text of a plain scalar. -/
  | byText
  /-- No tag is written: texts, sequences and mappings stand for themselves. -/
  | byShape
  | named (name : String)
  deriving DecidableEq, Repr

inductive Node where
  | scalar (tag : Tag) (text : String) (line : Nat)
  | sequence (tag : Tag) (items : List Node) (line : Nat)
  | mapping (tag : Tag) (entries : List (Node × Node)) (line : Nat)
  deriving Repr

namespace Node

def line : Node → Nat
  | scalar _ _ l => l
  | sequence _ _ l => l
  | mapping _ _ l => l

/-- A scalar that is left out. -/
def missing (line : Nat) : Node := .scalar .byText "" line

end Node

/-- The state of joining: the tokens left, the tag handles of the document and its anchors. -/
structure Joiner where
  left : Tokens
  handles : List (String × String)
  anchors : List (String × Node)

namespace Joiner

/-- The next token. -/
def peek (j : Joiner) : Except Fault Token :=
  match j.left.tokens with
  | t :: _ => .ok t
  | [] => .error (j.left.fault.getD .unprintable)

def pop (j : Joiner) : Joiner := { j with left := { j.left with tokens := j.left.tokens.drop 1 } }

/-- Fuel for reading what is left: every reader takes a token or hands over to one that does. -/
def fuel (j : Joiner) : Nat := 4 * j.left.tokens.length + 16

/-- Anchor, tag and first line of a node, as far as they are written. -/
structure Properties where
  anchor : Option String
  tag : Option (Token × Option String × String)
  line : Option Nat

def readAnchor? (t : Token) : Option String :=
  match t.kind with
  | .anchor name => some name
  | _ => none

def readTag? (t : Token) : Option (Token × Option String × String) :=
  match t.kind with
  | .tag handle suffix => some (t, handle, suffix)
  | _ => none

/-- An anchor and a tag in any order. -/
def readProperties (j : Joiner) : Except Fault (Properties × Joiner) := do
  let first ← j.peek
  match readAnchor? first, readTag? first with
  | some anchor, _ => do
    let j := j.pop
    let second ← j.peek
    match readTag? second with
    | some tag => pure (⟨some anchor, some tag, some first.line⟩, j.pop)
    | none => pure (⟨some anchor, none, some first.line⟩, j)
  | none, some tag => do
    let j := j.pop
    let second ← j.peek
    match readAnchor? second with
    | some anchor => pure (⟨some anchor, some tag, some first.line⟩, j.pop)
    | none => pure (⟨none, some tag, some first.line⟩, j)
  | none, none => pure (⟨none, none, none⟩, j)

/-- The name of a tag, its handle expanded. -/
def tagName? (j : Joiner) : Option (Token × Option String × String) → Except Fault (Option String)
  | none => .ok none
  | some (_, none, suffix) => .ok (some suffix)
  | some (t, some handle, suffix) =>
    match j.handles.lookup handle with
    | some expansion => .ok (some (expansion ++ suffix))
    | none => .error (.malformed t.line)

/-- The tag of a scalar. A lone exclamation mark counts as no tag, and leaves even a quoted text
open to be anything. -/
def scalarTag (plain : Bool) : Option String → Tag
  | none => if plain then .byText else .byShape
  | some "!" => .byText
  | some name => .named name

def shapeTag : Option String → Tag
  | none => .byShape
  | some "!" => .byShape
  | some name => .named name

/-- Give a node its anchor, which no other node of the document has. -/
def bind (j : Joiner) (anchor : Option String) (node : Node) : Except Fault Joiner :=
  match anchor with
  | none => .ok j
  | some name =>
    if (j.anchors.lookup name).isSome then .error (.malformed node.line)
    else .ok { j with anchors := (name, node) :: j.anchors }

/-- Replace the node of an anchor by the one with all its content. -/
def rebind (j : Joiner) (anchor : Option String) (node : Node) : Joiner :=
  match anchor with
  | none => j
  | some name => { j with anchors := (name, node) :: j.anchors }

/-- Whether a token is one of some kinds. -/
def isAt (kinds : List TokenKind) (t : Token) : Bool := kinds.contains t.kind

mutual

/-- A node. Block collections may start where `block` is set, a sequence without indentation of its
own where `inMapping` is. -/
def readNode (block inMapping : Bool) : Nat → Joiner → Except Fault (Node × Joiner)
  | 0, j => .error (j.left.fault.getD .unprintable)
  | fuel + 1, j => do
    let first ← j.peek
    match first.kind with
    | .alias name =>
      match j.anchors.lookup name with
      | some node => pure (node, j.pop)
      | none => .error (.malformed first.line)
    | _ => do
      let (props, j) ← j.readProperties
      let tag ← j.tagName? props.tag
      let t ← j.peek
      let line := props.line.getD t.line
      let sequence (items : List Node) := Node.sequence (shapeTag tag) items line
      let mapping (entries : List (Node × Node)) := Node.mapping (shapeTag tag) entries line
      let sequenceBy (j : Joiner) (read : Joiner → Except Fault (List Node × Joiner)) := do
        let j ← j.bind props.anchor (sequence [])
        let (items, j) ← read j
        pure (sequence items, j.rebind props.anchor (sequence items))
      let mappingBy (j : Joiner) (read : Joiner → Except Fault (List (Node × Node) × Joiner)) := do
        let j ← j.bind props.anchor (mapping [])
        let (entries, j) ← read j
        pure (mapping entries, j.rebind props.anchor (mapping entries))
      let scalar (node : Node) (j : Joiner) := do
        let j ← j.bind props.anchor node
        pure (node, j)
      match t.kind, block, inMapping with
      | .blockEntry, _, true => sequenceBy j (readLooseEntries fuel)
      | .scalar text plain, _, _ => scalar (.scalar (scalarTag plain tag) text line) j.pop
      | .flowSequenceStart, _, _ => sequenceBy j fun j => readFlowItems true fuel j.pop
      | .flowMappingStart, _, _ => mappingBy j fun j => readFlowEntries true fuel j.pop
      | .blockSequenceStart, true, _ => sequenceBy j fun j => readBlockItems fuel j.pop
      | .blockMappingStart, true, _ => mappingBy j fun j => readBlockEntries fuel j.pop
      | _, _, _ =>
        if props.anchor.isSome || tag.isSome then scalar (.scalar (scalarTag true tag) "" line) j
        else .error (.malformed t.line)

/-- A node, or a missing one where one of some tokens comes at once. -/
def readOptional (block inMapping : Bool) (ends : List TokenKind) (line : Nat) :
    Nat → Joiner → Except Fault (Node × Joiner)
  | 0, j => .error (j.left.fault.getD .unprintable)
  | fuel + 1, j => do
    let t ← j.peek
    if isAt ends t then pure (.missing line, j) else readNode block inMapping fuel j

/-- Items of a block sequence up to its end. -/
def readBlockItems : Nat → Joiner → Except Fault (List Node × Joiner)
  | 0, j => .error (j.left.fault.getD .unprintable)
  | fuel + 1, j => do
    let t ← j.peek
    match t.kind with
    | .blockEntry => do
      let (item, j) ← readOptional true false [.blockEntry, .blockEnd] t.line fuel j.pop
      let (items, j) ← readBlockItems fuel j
      pure (item :: items, j)
    | .blockEnd => pure ([], j.pop)
    | _ => .error (.malformed t.line)

/-- Items of a sequence without indentation of its own; any other token ends it. -/
def readLooseEntries : Nat → Joiner → Except Fault (List Node × Joiner)
  | 0, j => .error (j.left.fault.getD .unprintable)
  | fuel + 1, j => do
    let t ← j.peek
    match t.kind with
    | .blockEntry => do
      let (item, j) ← readOptional true false [.blockEntry, .key, .value, .blockEnd] t.line
        fuel j.pop
      let (items, j) ← readLooseEntries fuel j
      pure (item :: items, j)
    | _ => pure ([], j)

/-- A value after a key in a block mapping; it is missing where there is no colon. -/
def readBlockValue : Nat → Joiner → Except Fault (Node × Joiner)
  | 0, j => .error (j.left.fault.getD .unprintable)
  | fuel + 1, j => do
    let t ← j.peek
    match t.kind with
    | .value => readOptional true true [.key, .value, .blockEnd] t.line fuel j.pop
    | _ => pure (.missing t.line, j)

/-- Entries of a block mapping up to its end. -/
def readBlockEntries : Nat → Joiner → Except Fault (List (Node × Node) × Joiner)
  | 0, j => .error (j.left.fault.getD .unprintable)
  | fuel + 1, j => do
    let t ← j.peek
    match t.kind with
    | .key => do
      let (key, j) ← readOptional true true [.key, .value, .blockEnd] t.line fuel j.pop
      let (value, j) ← readBlockValue fuel j
      let (entries, j) ← readBlockEntries fuel j
      pure ((key, value) :: entries, j)
    | .blockEnd => pure ([], j.pop)
    | _ => .error (.malformed t.line)

/-- A value after a key within brackets, up to one of some tokens. -/
def readFlowValue (close : TokenKind) : Nat → Joiner → Except Fault (Node × Joiner)
  | 0, j => .error (j.left.fault.getD .unprintable)
  | fuel + 1, j => do
    let t ← j.peek
    match t.kind with
    | .value => readOptional false false [.flowEntry, close] t.line fuel j.pop
    | _ => pure (.missing t.line, j)

/-- Items of a flow sequence up to its bracket. An item with a key is a mapping of one entry. -/
def readFlowItems (first : Bool) : Nat → Joiner → Except Fault (List Node × Joiner)
  | 0, j => .error (j.left.fault.getD .unprintable)
  | fuel + 1, j => do
    let t ← j.peek
    if t.kind == .flowSequenceEnd then pure ([], j.pop)
    else if !first && t.kind != .flowEntry then .error (.malformed t.line)
    else do
      let j := if first then j else j.pop
      let t ← j.peek
      match t.kind with
      | .flowSequenceEnd => pure ([], j.pop)
      | .key => do
        let (key, j) ←
          readOptional false false [.value, .flowEntry, .flowSequenceEnd] t.line fuel j.pop
        let (value, j) ← readFlowValue .flowSequenceEnd fuel j
        let (items, j) ← readFlowItems false fuel j
        pure (.mapping .byShape [(key, value)] t.line :: items, j)
      | _ => do
        let (item, j) ← readNode false false fuel j
        let (items, j) ← readFlowItems false fuel j
        pure (item :: items, j)

/-- Entries of a flow mapping up to its brace. A node without a colon is a key without a value. -/
def readFlowEntries (first : Bool) : Nat → Joiner → Except Fault (List (Node × Node) × Joiner)
  | 0, j => .error (j.left.fault.getD .unprintable)
  | fuel + 1, j => do
    let t ← j.peek
    if t.kind == .flowMappingEnd then pure ([], j.pop)
    else if !first && t.kind != .flowEntry then .error (.malformed t.line)
    else do
      let j := if first then j else j.pop
      let t ← j.peek
      match t.kind with
      | .flowMappingEnd => pure ([], j.pop)
      | .key => do
        let (key, j) ←
          readOptional false false [.value, .flowEntry, .flowMappingEnd] t.line fuel j.pop
        let (value, j) ← readFlowValue .flowMappingEnd fuel j
        let (entries, j) ← readFlowEntries false fuel j
        pure ((key, value) :: entries, j)
      | _ => do
        let (key, j) ← readNode false false fuel j
        let t ← j.peek
        let (entries, j) ← readFlowEntries false fuel j
        pure ((key, .missing t.line) :: entries, j)

end

/-- The tag handles that need no directive. -/
def commonHandles : List (String × String) := [("!", "!"), ("!!", "tag:yaml.org,2002:")]

/-- Directives before a document: one version at most, of the first generation, and handles that
differ. -/
def readDirectives : Nat → Bool → List (String × String) → Joiner → Except Fault Joiner
  | 0, _, handles, j => .ok { j with handles := handles ++ commonHandles }
  | fuel + 1, versioned, handles, j => do
    let t ← j.peek
    match t.kind with
    | .version major =>
      if versioned || major != 1 then .error (.malformed t.line)
      else readDirectives fuel true handles j.pop
    | .tagHandle handle expansion =>
      if (handles.lookup handle).isSome then .error (.malformed t.line)
      else readDirectives fuel versioned (handles ++ [(handle, expansion)]) j.pop
    | .directive => readDirectives fuel versioned handles j.pop
    | _ => pure { j with handles := handles ++ commonHandles }

/-- The start of a document with its directives. -/
def readStart (j : Joiner) : Except Fault Joiner := do
  let j ← readDirectives j.fuel false [] j
  let t ← j.peek
  if t.kind == .documentStart then pure j.pop else .error (.malformed t.line)

def isDirective (t : Token) : Bool :=
  match t.kind with
  | .version _ | .tagHandle _ _ | .directive => true
  | _ => false

/-- The content of the first document. -/
def readContent (j : Joiner) : Except Fault (Node × Joiner) := do
  let t ← j.peek
  if isDirective t || t.kind == .documentStart then do
    let j ← j.readStart
    let t ← j.peek
    if isDirective t || isAt [.documentStart, .documentEnd, .streamEnd] t then
      pure (.missing t.line, j)
    else readNode true false j.fuel j
  else readNode true false j.fuel { j with handles := commonHandles }

/-- Skip the marks that end documents. -/
def skipEnds : Nat → Joiner → Except Fault Joiner
  | 0, j => .ok j
  | fuel + 1, j => do
    let t ← j.peek
    if t.kind == .documentEnd then skipEnds fuel j.pop else pure j

end Joiner

/-- The node of a text with one document; nothing for a text without any. -/
def Node.ofTokens? (tokens : Tokens) : Except Fault (Option Node) := do
  let j : Joiner := ⟨tokens, [], []⟩
  let t ← j.peek
  if t.kind == .streamEnd then pure none
  else do
    let (node, j) ← j.readContent
    let j ← j.skipEnds j.fuel
    let t ← j.peek
    if t.kind == .streamEnd then pure (some node)
    else do
      let _ ← j.readStart
      .error (.malformed t.line)

end Neogrammar.Yaml
