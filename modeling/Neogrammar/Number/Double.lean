/-!
# Double-precision numbers

A number is a sign, a whole significand and a power of two, held exactly. `ofRatio` rounds a
quotient to the nearest number of 53 binary places, a tie to the even significand.
-/
namespace Neogrammar

/-- A binary floating-point number; a finite one is `± significand * 2 ^ exponent`. -/
inductive Double where
  | nan
  | infinite (negative : Bool)
  | finite (negative : Bool) (significand : Nat) (exponent : Int)
  deriving DecidableEq, Repr, Inhabited

namespace Double

/-- `n * 2 ^ e` and the divisor that makes it whole. -/
def scale (n : Nat) (e : Int) : Nat × Nat :=
  match e with
  | .ofNat k => (n <<< k, 1)
  | .negSucc k => (n, 1 <<< (k + 1))

/-- The quotient to the nearest whole number, a tie to the even one. -/
def roundDiv (num den : Nat) : Nat :=
  let q := num / den
  let r := num % den
  if 2 * r < den then q else if den < 2 * r then q + 1 else q + q % 2

/-- Round at a fixed exponent; a significand that gains a place moves to the next exponent. -/
def roundAt (negative : Bool) (num den : Nat) (e : Int) : Double :=
  let q := match e with
    | .ofNat k => roundDiv num (den <<< k)
    | .negSucc k => roundDiv (num <<< (k + 1)) den
  let m := if q = 1 <<< 53 then 1 <<< 52 else q
  let e := if q = 1 <<< 53 then e + 1 else e
  if e > 971 then .infinite negative else .finite negative m e

/-- The number nearest to `± num / den`. -/
def ofRatio (negative : Bool) (num den : Nat) : Double :=
  if num = 0 then .finite negative 0 0
  else
    let e : Int := (num.log2 : Int) - den.log2 - 52
    -- the quotient at `e` has 52 or 53 places
    let (n, d) := match e with
      | .ofNat k => (num, den <<< k)
      | .negSucc k => (num <<< (k + 1), den)
    let e := if n / d < 1 <<< 52 then e - 1 else e
    roundAt negative num den (max e (-1074))

/-- The number nearest to `± digits * 10 ^ power`. -/
def ofDecimal (negative : Bool) (digits : Nat) (power : Int) : Double :=
  match power with
  | .ofNat k => ofRatio negative (digits * Nat.pow 10 k) 1
  | .negSucc k => ofRatio negative digits (Nat.pow 10 (k + 1))

def ofInt (n : Int) : Double := ofRatio (n < 0) n.natAbs 1

/-- The sign, numerator and denominator of a finite number. -/
def ratio? : Double → Option (Bool × Nat × Nat)
  | .finite s m e => some (s, scale m e)
  | _ => none

/-- The whole part of a finite number, toward zero. -/
def truncate? : Double → Option Int
  | .finite s m e =>
    let n : Int := ((scale m e).1 / (scale m e).2 : Nat)
    some (if s then -n else n)
  | _ => none

/-- The difference of two finite numbers, times a positive factor. -/
def gap (s₁ : Bool) (m₁ : Nat) (e₁ : Int) (s₂ : Bool) (m₂ : Nat) (e₂ : Int) : Int :=
  let low := min e₁ e₂
  let a : Int := (m₁ <<< (e₁ - low).toNat : Nat)
  let b : Int := (m₂ <<< (e₂ - low).toNat : Nat)
  (if s₁ then -a else a) - (if s₂ then -b else b)

/-- Numerical equality: the zeros are equal and a NaN equals nothing. -/
def same : Double → Double → Bool
  | .finite s₁ m₁ e₁, .finite s₂ m₂ e₂ => gap s₁ m₁ e₁ s₂ m₂ e₂ == 0
  | .infinite a, .infinite b => a == b
  | _, _ => false

/-- Numerical order. -/
def less : Double → Double → Bool
  | .finite s₁ m₁ e₁, .finite s₂ m₂ e₂ => decide (gap s₁ m₁ e₁ s₂ m₂ e₂ < 0)
  | .infinite a, .infinite b => a && !b
  | .infinite a, .finite .. => a
  | .finite .., .infinite b => !b
  | _, _ => false

def isZero : Double → Bool
  | .finite _ m _ => m == 0
  | _ => false

/-- The sum, rounded. -/
def add : Double → Double → Double
  | .finite s₁ m₁ e₁, .finite s₂ m₂ e₂ =>
    let low := min e₁ e₂
    let sum := gap s₁ m₁ e₁ (!s₂) m₂ e₂
    let r := scale sum.natAbs low
    ofRatio (if sum == 0 then s₁ && s₂ else decide (sum < 0)) r.1 r.2
  | .infinite a, .infinite b => if a == b then .infinite a else .nan
  | .infinite a, .finite .. => .infinite a
  | .finite .., .infinite b => .infinite b
  | _, _ => .nan

/-- The product, rounded. -/
def mul : Double → Double → Double
  | .finite s₁ m₁ e₁, .finite s₂ m₂ e₂ =>
    let r := scale (m₁ * m₂) (e₁ + e₂)
    ofRatio (s₁ != s₂) r.1 r.2
  | .nan, _ => .nan
  | _, .nan => .nan
  | .infinite a, .infinite b => .infinite (a != b)
  | .infinite a, .finite s m _ => if m = 0 then .nan else .infinite (a != s)
  | .finite s m _, .infinite b => if m = 0 then .nan else .infinite (s != b)

def neg : Double → Double
  | .nan => .nan
  | .infinite s => .infinite (!s)
  | .finite s m e => .finite (!s) m e

end Double
end Neogrammar
