import Neogrammar.Error

/-!
# Slots and rule lists

A slot keeps its index for good: removing its content leaves it empty. A rule list closes the gap.
Both refuse an index that addresses nothing.
-/
namespace Neogrammar

/-- The place that an index addresses among `length` places. A fraction within the range addresses
no place, but is not out of range either. -/
def locate (index : Datum) (length : Nat) : Except Error Nat :=
  match index.quantity? with
  | some (.whole n) =>
    if 0 ≤ n ∧ n < length then .ok n.toNat else .error (.outOfRange index length)
  | some (.fraction x) =>
    if (x.less (.ofInt 0)) || !x.less (.ofInt length) then .error (.outOfRange index length)
    else .error .wrongKind
  | none => .error .wrongKind

theorem locate_int (n : Int) (length : Nat) :
    locate (.int n) length =
      if 0 ≤ n ∧ n < length then .ok n.toNat else .error (.outOfRange (.int n) length) := rfl

/-- Cells that are addressed by stable indices; an empty cell held something that was removed. -/
structure Slots (α : Type) where
  cells : List (Option α)
  deriving DecidableEq, Repr

namespace Slots

variable {α : Type}

def empty : Slots α := ⟨[]⟩

def size (s : Slots α) : Nat := s.cells.length

/-- Add a cell at the end; its index is the old size. -/
def push (s : Slots α) (cell : Option α) : Slots α := ⟨s.cells ++ [cell]⟩

/-- The content of a cell, if the index addresses one that has any. -/
def find? (s : Slots α) (i : Nat) : Option α := s.cells[i]?.join

/-- The content of a cell. -/
def get (s : Slots α) (index : Datum) : Except Error α := do
  let i ← locate index s.size
  match s.find? i with
  | some a => pure a
  | none => .error (.vacant index)

/-- Overwrite a cell, which may be empty. -/
def put (s : Slots α) (i : Nat) (cell : Option α) : Slots α := ⟨s.cells.set i cell⟩

def set (s : Slots α) (index : Datum) (cell : Option α) : Except Error (Slots α) := do
  let i ← locate index s.size
  pure (s.put i cell)

/-- Empty a cell; the result is its former content with the slots after. -/
def remove (s : Slots α) (index : Datum) : Except Error (Option α × Slots α) := do
  let i ← locate index s.size
  pure (s.find? i, s.put i none)

/-- Whether an index addresses a cell that is not empty. -/
def isLive (s : Slots α) (n : Int) : Bool := 0 ≤ n && (s.find? n.toNat).isSome

/-- Index and content of every cell that is not empty. -/
def items (s : Slots α) : List (Nat × α) :=
  s.cells.zipIdx.filterMap fun e => e.1.map fun a => (e.2, a)

/-- The first index whose content satisfies `p`. -/
def findIndex? (s : Slots α) (p : α → Bool) : Option Nat :=
  (s.items.find? fun e => p e.2).map (·.1)

@[simp] theorem size_push (s : Slots α) (cell : Option α) : (s.push cell).size = s.size + 1 := by
  simp [size, push]

@[simp] theorem size_put (s : Slots α) (i : Nat) (cell : Option α) :
    (s.put i cell).size = s.size := by
  simp [size, put]

theorem find?_push_lt (s : Slots α) (cell : Option α) {i : Nat} (h : i < s.size) :
    (s.push cell).find? i = s.find? i := by
  simp only [size] at h
  simp [find?, push, List.getElem?_append_left h]

@[simp] theorem find?_push_size (s : Slots α) (cell : Option α) :
    (s.push cell).find? s.size = cell := by
  simp [find?, push, size]

theorem find?_put_same (s : Slots α) (cell : Option α) {i : Nat} (h : i < s.size) :
    (s.put i cell).find? i = cell := by
  simp only [size] at h
  simp [find?, put, h]

theorem find?_put_other (s : Slots α) (cell : Option α) {i j : Nat} (h : i ≠ j) :
    (s.put i cell).find? j = s.find? j := by
  simp [find?, put, List.getElem?_set_ne h]

end Slots

/-- The gap that an index addresses among the gaps before, between and after `length` places. -/
def locateGap (index : Datum) (length : Nat) : Except Error Nat :=
  match index.quantity? with
  | some (.whole n) =>
    if 0 ≤ n ∧ n ≤ length then .ok n.toNat else .error (.outOfRange index length)
  | some (.fraction x) =>
    let size := Double.ofInt length
    if x.less (.ofInt 0) || !(x.less size || x.same size) then .error (.outOfRange index length)
    else .error .wrongKind
  | none => .error .wrongKind

namespace RuleList

variable {α : Type}

/-- Replace a rule; the result is the old one with the list after. -/
def alter (rules : List α) (index : Datum) (rule : α) : Except Error (α × List α) := do
  let i ← locate index rules.length
  match rules[i]? with
  | some old => pure (old, rules.set i rule)
  | none => .error (.outOfRange index rules.length)

/-- Put a rule before the one at an index; at the length of the list it becomes the last. -/
def insert (rules : List α) (index : Datum) (rule : α) : Except Error (List α) := do
  let i ← locateGap index rules.length
  pure (rules.insertIdx i rule)

/-- Take a rule out; the result is that rule with the list after. -/
def remove (rules : List α) (index : Datum) : Except Error (α × List α) := do
  let i ← locate index rules.length
  match rules[i]? with
  | some old => pure (old, rules.eraseIdx i)
  | none => .error (.outOfRange index rules.length)

end RuleList
end Neogrammar
