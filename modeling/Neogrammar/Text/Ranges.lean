/-!
# Sets of code points

A set is an array of closed intervals in ascending order, searched by halving.
-/
namespace Neogrammar.Text

/-- Closed intervals of code points, ascending and apart. -/
abbrev Ranges := Array (Nat × Nat)

/-- The value of a hexadecimal numeral in capital digits. -/
def hexValue (digits : List Char) : Nat :=
  digits.foldl
    (fun n d => 16 * n + if d.isDigit then d.toNat - '0'.toNat else d.toNat - 'A'.toNat + 10) 0

/-- Cut a list at every element that satisfies `p`, which is dropped. -/
def cutAt {α : Type} (p : α → Bool) : List α → List (List α)
  | [] => [[]]
  | a :: rest =>
    match p a, cutAt p rest with
    | true, parts => [] :: parts
    | false, [] => [[a]]
    | false, part :: parts => (a :: part) :: parts

/-- What separates the entries of a written table. -/
def isGap (c : Char) : Bool := c == ' ' || c == '\n'

/-- The entries of a written table. -/
def entries (text : String) : List (List Char) := (cutAt isGap text.toList).filter (!·.isEmpty)

/-- Read a written set such as `30-39 5F`. -/
def Ranges.ofText (text : String) : Ranges :=
  ((entries text).map fun item =>
    match cutAt (· == '-') item with
    | [low, high] => (hexValue low, hexValue high)
    | parts => (hexValue parts.flatten, hexValue parts.flatten)).toArray

/-- The index of the last interval in `[low, high)` that starts at or before `c`, if any:
each round halves the stretch, so `fuel` rounds settle `2 ^ fuel` intervals. -/
def lastAtOrBefore (starts : Nat → Nat) (c : Nat) : Nat → Nat → Nat → Option Nat
  | 0, _, _ => none
  | fuel + 1, low, high =>
    if high ≤ low then none
    else
      let mid := (low + high) / 2
      if starts mid ≤ c then (lastAtOrBefore starts c fuel (mid + 1) high).or (some mid)
      else lastAtOrBefore starts c fuel low mid

/-- Membership. -/
def Ranges.has (r : Ranges) (c : Nat) : Bool :=
  match lastAtOrBefore (fun i => (r[i]?.getD (0, 0)).1) c 20 0 r.size with
  | none => false
  | some i => decide (c ≤ (r[i]?.getD (0, 0)).2)

/-- How far `c` lies into the interval that holds it. -/
def Ranges.offset? (r : Ranges) (c : Nat) : Option Nat :=
  match lastAtOrBefore (fun i => (r[i]?.getD (0, 0)).1) c 20 0 r.size with
  | none => none
  | some i => if c ≤ (r[i]?.getD (0, 0)).2 then some (c - (r[i]?.getD (0, 0)).1) else none

end Neogrammar.Text
