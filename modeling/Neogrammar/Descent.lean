import Neogrammar.Language

/-!
# Descent

Derivation carries the words of an ancestor through the sound changes of a descendant. A word of
the descendant with exactly one coordinate into the ancestor is refreshed in place; words of the
ancestor that none inherits are appended. Coinages, loans and blends are left alone.
-/
namespace Neogrammar.Descent

/-- The descendant of a word under given pipelines. -/
def descendant (ancestor : Word) (coordinate : Coordinate) (ps : Pipelines) :
    Except Error Word := do
  let mnemonic ← ps.soundChange.run ancestor.mnemonic
  (Word.entered mnemonic ancestor.gloss ancestor.pos ancestor.note [coordinate]).morph
    ps.toSurface ps.toPhonetic

/-- The one coordinate of a word, if it has exactly one and it points into language `ancestor`. -/
def coordinateInto? (ancestor : Int) (w : Word) : Option Coordinate :=
  match w.ancestors with
  | [c] => if c.lang = ancestor then some c else none
  | _ => none

/-- The word at an index of the queue of words not yet inherited. -/
def waiting? (queue : List (Option Word)) (n : Int) : Option Word :=
  if 0 ≤ n then queue[n.toNat]?.join else none

/-- Derive anew the inherited words among `words`, up to the first failure. The first part of the
result is what was derived before that, with the indices; the second is the queue that is left. -/
def refresh (ancestor : Int) (ps : Pipelines) :
    List (Nat × Word) → List (Option Word) →
      List (Nat × Word) × Except Error (List (Option Word))
  | [], queue => ([], .ok queue)
  | (i, w) :: rest, queue =>
    match coordinateInto? ancestor w with
    | none => refresh ancestor ps rest queue
    | some c =>
      match waiting? queue c.word with
      | none => ([], .error (.ghost i))
      | some source =>
        match descendant source c ps with
        | .error e => ([], .error e)
        | .ok derived =>
          let (fuses, result) := refresh ancestor ps rest (queue.set c.word.toNat none)
          ((i, derived) :: fuses, result)

/-- Derive the words left in a queue whose first index is `i`. -/
def inherit (ancestor : Int) (ps : Pipelines) : Nat → List (Option Word) → Except Error (List Word)
  | _, [] => .ok []
  | i, none :: rest => inherit ancestor ps (i + 1) rest
  | i, some w :: rest => do
    let first ← descendant w ⟨ancestor, i⟩ ps
    let more ← inherit ancestor ps (i + 1) rest
    pure (first :: more)

/-- Fuse derived words into a vocabulary. -/
def fuseAll (vocab : Slots Word) (fuses : List (Nat × Word)) : Slots Word :=
  fuses.foldl (fun v f => v.put f.1 ((v.find? f.1).map fun w => w.fuse f.2)) vocab

/-- The indices that a derivation touched. -/
structure Report where
  language : Int
  ancestor : Int
  fused : List Nat
  inherited : List Nat
  deriving DecidableEq, Repr

/-- Merge the vocabulary of `ancestor`, which has index `a`, into `language`, which has index `l`.
Where `transactional` is set, a failure leaves the language as it was; otherwise its new ancestor
and the words fused so far stay. -/
def derive (language ancestor : Language) (l a : Int) (ps : Pipelines) (transactional : Bool) :
    Language × Except Error Report :=
  let (fuses, left) := refresh a ps language.vocab.items ancestor.vocab.cells
  let fused := { language with ancestor := some a, vocab := fuseAll language.vocab fuses }
  let failed := if transactional then language else fused
  match left with
  | .error e => (failed, .error e)
  | .ok queue =>
    match inherit a ps 0 queue with
    | .error e => (failed, .error e)
    | .ok fresh =>
      let size := fused.vocab.size
      ({ fused with vocab := ⟨fused.vocab.cells ++ fresh.map some⟩ },
        .ok ⟨l, a, fuses.map (·.1), (List.range fresh.length).map (size + ·)⟩)

end Neogrammar.Descent
