import Neogrammar.Number.Double
import Neogrammar.Text.Numeral

/-!
# Shortest decimal texts

A number is written with the fewest significant digits that read back as that number, the nearest
such decimal; `Double.text` then decides between positional and scientific writing.
-/
namespace Neogrammar.Double

/-- The least `j` with `num * 10 ^ j ≥ den`, looked for in `fuel` steps from `j`. -/
def firstPlace (num den : Nat) : Nat → Nat → Nat
  | 0, j => j
  | fuel + 1, j => if den ≤ num * Nat.pow 10 j then j else firstPlace num den fuel (j + 1)

/-- The place `p` of the point of a positive quotient: `10 ^ (p - 1) ≤ num / den < 10 ^ p`. -/
def pointPlace (num den : Nat) : Int :=
  if den ≤ num then (Nat.toDigits 10 (num / den)).length else 1 - (firstPlace num den 400 0 : Int)

/-- The two whole multiples of `10 ^ power` next to a quotient, the nearer first; a tie counts the
even one as nearer. -/
def neighbours (num den : Nat) (power : Int) : List Nat :=
  let (n, d) := match power with
    | .ofNat k => (num, den * Nat.pow 10 k)
    | .negSucc k => (num * Nat.pow 10 (k + 1), den)
  let near := roundDiv n d
  let below := n / d
  if near = below then [below, below + 1] else [below + 1, below]

/-- Try `count` digits, then more, until a decimal reads back. -/
def shortestFrom (m : Nat) (e : Int) (point : Int) : Nat → Nat → Nat × Int
  | 0, count => ((neighbours (scale m e).1 (scale m e).2 (point - count)).headD 0, point - count)
  | fuel + 1, count =>
    match (neighbours (scale m e).1 (scale m e).2 (point - count)).find? fun digits =>
        ofDecimal false digits (point - count) == .finite false m e with
    | some digits => (digits, point - count)
    | none => shortestFrom m e point fuel (count + 1)

/-- The shortest decimal `digits * 10 ^ power` of a positive number. -/
def shortest (m : Nat) (e : Int) : Nat × Int :=
  shortestFrom m e (pointPlace (scale m e).1 (scale m e).2) 16 1

/-- Digits without the zeros at their end. -/
def significant (digits : Nat) : List Char :=
  ((Nat.toDigits 10 digits).reverse.dropWhile (· == '0')).reverse

/-- Write significant digits whose point stands at place `point`. Exponents from -4 up to 15 are
written positionally, with at least one digit on either side of the point; any other with a
two-digit exponent. -/
def layout (digits : List Char) (point : Int) : List Char :=
  if -4 < point ∧ point ≤ 16 then
    if point ≤ 0 then '0' :: '.' :: List.replicate (-point).toNat '0' ++ digits
    else if digits.length ≤ point.toNat then
      digits ++ List.replicate (point.toNat - digits.length) '0' ++ ['.', '0']
    else digits.take point.toNat ++ '.' :: digits.drop point.toNat
  else
    let exponent := (Nat.toDigits 10 (point - 1).natAbs)
    let padded := if exponent.length < 2 then '0' :: exponent else exponent
    digits.take 1 ++ (if digits.length > 1 then '.' :: digits.drop 1 else [])
      ++ 'e' :: (if point < 1 then '-' else '+') :: padded

/-- The decimal text of a number. -/
def text : Double → String
  | .nan => "nan"
  | .infinite true => "-inf"
  | .infinite false => "inf"
  | .finite s m e =>
    let body := if m = 0 then ['0', '.', '0'] else
      let (digits, power) := shortest m e
      layout (significant digits) (power + (Nat.toDigits 10 digits).length)
    String.ofList (if s then '-' :: body else body)

end Neogrammar.Double
