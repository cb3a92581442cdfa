import Neogrammar.Yaml.ScalarValue

/-!
# Reading YAML

The value of a node. A mapping takes over the entries of those that it merges in, its own entries
come after them, and of equal keys the last gives the value. Of several faulty values the one
nearest to the root is reported, and of those the first.
-/
namespace Neogrammar.Yaml

/-! ## Merging -/

/-- A key of a default entry is the text that it is written with. -/
def plainKey (key : Node) : Node :=
  match key.kind, key with
  | .default, .scalar _ text line => .scalar .byShape text line
  | .default, .mapping _ entries line => .mapping (.named "tag:yaml.org,2002:str") entries line
  | _, key => key

mutual

/-- The entries of a mapping with what it merges in before its own. -/
def flatten : Node → Except Fault (List (Node × Node))
  | .mapping _ entries _ => do
    let (merged, own) ← flattenEntries entries
    pure (merged ++ own)
  | node => .error (.malformed node.line)

/-- Entries that are merged in, and entries of the mapping itself. -/
def flattenEntries : List (Node × Node) → Except Fault (List (Node × Node) × List (Node × Node))
  | [] => .ok ([], [])
  | (key, value) :: rest =>
    if key.kind == .merge then do
      let first ← mergedEntries value
      let (merged, own) ← flattenEntries rest
      pure (first ++ merged, own)
    else do
      let (merged, own) ← flattenEntries rest
      pure (merged, (plainKey key, value) :: own)

/-- The entries that a value merges in: those of a mapping, or of several, the last ones first. -/
def mergedEntries : Node → Except Fault (List (Node × Node))
  | .mapping _ entries _ => do
    let (merged, own) ← flattenEntries entries
    pure (merged ++ own)
  | .sequence _ items _ => flattenAll items
  | .scalar _ _ line => .error (.malformed line)

def flattenAll : List Node → Except Fault (List (Node × Node))
  | [] => .ok []
  | item :: rest => do
    let first ← flatten item
    let more ← flattenAll rest
    pure (more ++ first)

end

/-! ## Values -/

/-- A fault with the depth of its node. -/
abbrev Deep := Except (Nat × Fault)

/-- Two values side by side: the nearer fault comes first, of equally near ones the first. -/
def both {α β : Type} : Deep α → Deep β → Deep (α × β)
  | .ok a, .ok b => .ok (a, b)
  | .error e, .ok _ => .error e
  | .ok _, .error e => .error e
  | .error e, .error f => .error (if f.1 < e.1 then f else e)

def atDepth {α : Type} (depth : Nat) : Except Fault α → Deep α
  | .ok a => .ok a
  | .error f => .error (depth, f)

mutual

def depthOf : Node → Nat
  | .scalar _ _ _ => 1
  | .sequence _ items _ => depthOfAll items + 1
  | .mapping _ entries _ => depthOfEntries entries + 1

def depthOfAll : List Node → Nat
  | [] => 0
  | n :: rest => max (depthOf n) (depthOfAll rest)

def depthOfEntries : List (Node × Node) → Nat
  | [] => 0
  | (k, v) :: rest => max (max (depthOf k) (depthOf v)) (depthOfEntries rest)

end

/-- Values of several nodes. -/
def allValues (value : Node → Deep Datum) : List Node → Deep (List Datum)
  | [] => .ok []
  | n :: rest => (both (value n) (allValues value rest)).map fun p => p.1 :: p.2

/-- A key, which must not be a list or map. -/
def keyValue (value : Node → Deep Datum) (depth : Nat) (key : Node) : Deep Datum :=
  if key.kind == .list || key.kind == .map then .error (depth, .malformed key.line) else value key

/-- Keys and values of several entries. -/
def entryValues (value : Node → Deep Datum) (depth : Nat) :
    List (Node × Node) → Deep (List (Datum × Datum))
  | [] => .ok []
  | (k, v) :: rest =>
    (both (both (keyValue value depth k) (value v)) (entryValues value depth rest)).map
      fun p => p.1 :: p.2

/-- Join entries: a later value replaces an earlier one of the same key. -/
def joinEntries (entries : List (Datum × Datum)) : List (Datum × Datum) :=
  entries.foldl (fun es e => Datum.put e.1 e.2 es) []

mutual

/-- The text of a scalar node, or of the default entry of a mapping that stands for one. -/
def scalarText : Node → Except Fault String
  | .scalar _ text _ => .ok text
  | .sequence _ _ line => .error (.malformed line)
  | .mapping _ entries line => defaultText line entries

/-- The text of the first default entry; `line` is that of the mapping. -/
def defaultText (line : Nat) : List (Node × Node) → Except Fault String
  | [] => .error (.malformed line)
  | (key, value) :: rest =>
    if key.kind == .default then scalarText value else defaultText line rest

end

/-- The value of a scalar node, or of a mapping that stands for one; that is not looked through for
a moment. -/
def scalarOf (node : Node) : Except Fault Datum := do
  let text ← scalarText node
  match node.kind, node with
  | .moment, .mapping _ _ _ => .error .noMoment
  | kind, _ => scalarValue kind text node.line

/-- The value of a node at a depth. The fuel is the depth of the node itself. -/
def nodeValue : Nat → Nat → Node → Deep Datum
  | 0, depth, node => .error (depth, .malformed node.line)
  | fuel + 1, depth, node =>
    match node.kind with
    | .list =>
      match node with
      | .sequence _ items _ => (allValues (nodeValue fuel (depth + 1)) items).map .list
      | node => .error (depth + 1, .malformed node.line)
    | .map => do
      let entries ← atDepth (depth + 1) (flatten node)
      let values ← entryValues (nodeValue fuel (depth + 1)) (depth + 1) entries
      pure (.map (joinEntries values))
    | .unknown | .merge | .default => .error (depth, .malformed node.line)
    | _ => atDepth depth (scalarOf node)

def Node.value (node : Node) : Except Fault Datum :=
  match nodeValue (depthOf node) 0 node with
  | .ok d => .ok d
  | .error (_, fault) => .error fault

/-! ## Texts -/

/-- The characters that a text may hold. -/
def isAllowed (c : Char) : Bool :=
  c == '\t' || c == '\n' || c == '\r' || ('\x20' ≤ c && c ≤ '\x7e') || c == '\x85'
    || ('\xa0' ≤ c && c ≤ '\ufffd') || 0x10000 ≤ c.toNat

/-- The node of a text, if there is a document in it. -/
def nodeOf? (text : String) : Except Fault (Option Node) :=
  if text.toList.all isAllowed then Node.ofTokens? (.ofText text.toList) else .error .unprintable

/-- The value of a text; null without a document. -/
def read (text : String) : Except Fault Datum := do
  match ← nodeOf? text with
  | none => pure .null
  | some node => node.value

end Neogrammar.Yaml
