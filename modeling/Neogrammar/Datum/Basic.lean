import Neogrammar.Datum.Calendar
import Neogrammar.Number.Double

/-!
# Plain data

The values that project files, change requests and settings are made of. A map keeps its entries
in the order in which their keys first came, and its keys may be of any scalar kind.
-/
namespace Neogrammar

inductive Datum where
  | null
  | bool (b : Bool)
  | int (n : Int)
  | real (x : Double)
  | text (s : String)
  | time (t : Timestamp)
  | list (items : List Datum)
  | map (entries : List (Datum × Datum))
  deriving Repr, Inhabited

instance : Coe String Datum := ⟨.text⟩
instance : Coe Int Datum := ⟨.int⟩

namespace Datum

/-- A natural number as a datum. -/
def nat (n : Nat) : Datum := .int n

/-- The numerical value of a number or truth value. -/
inductive Quantity where
  | whole (n : Int)
  | fraction (x : Double)

/-- Truth values count as 0 and 1. -/
def quantity? : Datum → Option Quantity
  | .bool b => some (.whole (if b then 1 else 0))
  | .int n => some (.whole n)
  | .real x => some (.fraction x)
  | _ => none

/-- Numerical equality across kinds of number; exact, since a whole number is compared as itself. -/
def Quantity.same : Quantity → Quantity → Bool
  | .whole m, .whole n => m == n
  | .fraction x, .fraction y => x.same y
  | .whole n, .fraction x => x.same (.finite (n < 0) n.natAbs 0)
  | .fraction x, .whole n => x.same (.finite (n < 0) n.natAbs 0)

mutual

/-- Equality of values: numbers by value, lists in order, maps in any order. -/
def same : Datum → Datum → Bool
  | .null, .null => true
  | .text s, .text t => s == t
  | .time s, .time t => s == t
  | .list xs, .list ys => sameList xs ys
  | .map xs, .map ys => xs.length == ys.length && sameEntries xs ys
  | a, b =>
    match a.quantity?, b.quantity? with
    | some p, some q => p.same q
    | _, _ => false

def sameList : List Datum → List Datum → Bool
  | [], [] => true
  | x :: xs, y :: ys => same x y && sameList xs ys
  | _, _ => false

/-- Every entry of the first list has an equal one in the second. -/
def sameEntries : List (Datum × Datum) → List (Datum × Datum) → Bool
  | [], _ => true
  | (k, v) :: rest, ys => ys.any (fun e => same k e.1 && same v e.2) && sameEntries rest ys

end

/-- What counts as true: all but null, false, zero and what is empty. -/
def truthy : Datum → Bool
  | .null => false
  | .bool b => b
  | .int n => n != 0
  | .real x => !x.isZero
  | .text s => !s.isEmpty
  | .time _ => true
  | .list xs => !xs.isEmpty
  | .map es => !es.isEmpty

def isNull : Datum → Bool
  | .null => true
  | _ => false

def isText : Datum → Bool
  | .text _ => true
  | _ => false

def text? : Datum → Option String
  | .text s => some s
  | _ => none

/-- A whole number or truth value. -/
def whole? : Datum → Option Int
  | .bool b => some (if b then 1 else 0)
  | .int n => some n
  | _ => none

/-- The value of the entry with a given text as its key. -/
def field? (key : String) : List (Datum × Datum) → Option Datum
  | [] => none
  | (k, v) :: rest =>
    match k with
    | .text s => if s = key then some v else field? key rest
    | _ => field? key rest

/-- Set the value of a key: an old key keeps its place and its form. -/
def put (key value : Datum) : List (Datum × Datum) → List (Datum × Datum)
  | [] => [(key, value)]
  | (k, v) :: rest => if same k key then (k, value) :: rest else (k, v) :: put key value rest

/-- What stepping through a value yields: the characters of a text, the items of a list, the keys
of a map. Other kinds cannot be stepped through. -/
def elements? : Datum → Option (List Datum)
  | .text s => some (s.toList.map fun c => .text c.toString)
  | .list xs => some xs
  | .map es => some (es.map (·.1))
  | _ => none

/-- The number of elements. -/
def size? : Datum → Option Nat
  | .text s => some s.length
  | .list xs => some xs.length
  | .map es => some es.length
  | _ => none

/-- Whether a value may be looked up as a key. -/
def isKey : Datum → Bool
  | .list _ => false
  | .map _ => false
  | _ => true

/-- A map from text keys, in order. -/
def record (entries : List (String × Datum)) : Datum :=
  .map (entries.map fun e => (.text e.1, e.2))

end Datum
end Neogrammar
