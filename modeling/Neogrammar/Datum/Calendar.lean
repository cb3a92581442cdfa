import Neogrammar.Text.Numeral

/-!
# Points in time

A day of the calendar, or a moment of a day with an optional distance from universal time.
-/
namespace Neogrammar

/-- A day, or a time of day on it down to the millionth of a second. The offset from universal
time counts seconds; a moment without one is local. -/
inductive Timestamp where
  | day (year month day : Nat)
  | moment (year month day hour minute second micro : Nat) (offset : Option Int)
  deriving DecidableEq, Repr, Inhabited

namespace Timestamp

def isLeap (year : Nat) : Bool := year % 4 == 0 && (year % 100 != 0 || year % 400 == 0)

def daysIn (year month : Nat) : Nat :=
  if month = 2 then if isLeap year then 29 else 28
  else if month = 4 ∨ month = 6 ∨ month = 9 ∨ month = 11 then 30 else 31

/-- The years run from 1 to 9999, the months and days as in the Gregorian calendar. -/
def isDay (year month day : Nat) : Bool :=
  1 ≤ year && year ≤ 9999 && 1 ≤ month && month ≤ 12 && 1 ≤ day && day ≤ daysIn year month

/-- A numeral filled with zeros up to `width` digits. -/
def padded (width n : Nat) : List Char :=
  let digits := Nat.toDigits 10 n
  List.replicate (width - digits.length) '0' ++ digits

def dayText (year month day : Nat) : List Char :=
  padded 4 year ++ '-' :: padded 2 month ++ '-' :: padded 2 day

/-- An offset as signed hours and minutes, with seconds where they are not zero. -/
def offsetText (offset : Int) : List Char :=
  let n := offset.natAbs
  (if offset < 0 then '-' else '+') :: padded 2 (n / 3600) ++ ':' :: padded 2 (n / 60 % 60)
    ++ if n % 60 = 0 then [] else ':' :: padded 2 (n % 60)

/-- The text of a point in time, with `gap` between day and time of day. -/
def text (gap : Char) : Timestamp → String
  | .day y m d => String.ofList (dayText y m d)
  | .moment y m d h mi s us offset =>
    String.ofList <|
      dayText y m d ++ gap :: padded 2 h ++ ':' :: padded 2 mi ++ ':' :: padded 2 s
        ++ (if us = 0 then [] else '.' :: padded 6 us)
        ++ match offset with
          | none => []
          | some o => offsetText o

/-- The notation of a span of seconds: whole days and the seconds beyond them. -/
def spanQuoted (span : Int) : String :=
  let days := Int.fdiv span 86400
  let rest := Int.fmod span 86400
  let parts := (if days = 0 then [] else ["days=" ++ Text.intText days])
    ++ if rest = 0 then [] else ["seconds=" ++ Text.intText rest]
  "datetime.timedelta(" ++ ", ".intercalate parts ++ ")"

/-- The notation of an offset. -/
def offsetQuoted (offset : Int) : String :=
  if offset = 0 then "datetime.timezone.utc"
  else "datetime.timezone(" ++ spanQuoted offset ++ ")"

/-- The constructor notation; seconds and millionths appear only where they are not zero. -/
def quoted : Timestamp → String
  | .day y m d => s!"datetime.date({y}, {m}, {d})"
  | .moment y m d h mi s us offset =>
    let fields := [y, m, d, h, mi] ++ if us = 0 then if s = 0 then [] else [s] else [s, us]
    let zone := match offset with
      | none => []
      | some o => ["tzinfo=" ++ offsetQuoted o]
    "datetime.datetime(" ++ ", ".intercalate (fields.map Text.natText ++ zone) ++ ")"

end Timestamp
end Neogrammar
