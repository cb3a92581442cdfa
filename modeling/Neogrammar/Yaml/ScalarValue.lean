import Neogrammar.Text.Case
import Neogrammar.Yaml.Node

/-!
# Values of scalars

The text of a plain scalar tells of what kind its value is: `kindOf` sorts texts, and `scalarValue`
reads the value of a given kind. Whole numbers come in four bases and in sixties, fractions have a
point, and days and moments are written with dashes and colons.
-/
namespace Neogrammar.Yaml

inductive Kind where
  | null
  | truth
  | whole
  | real
  | moment
  | text
  | list
  | map
  /-- The sign of entries to be merged in. -/
  | merge
  /-- The sign of a default entry. -/
  | default
  | unknown
  deriving DecidableEq, Repr

/-! ## Recognising texts -/

def isDigitPart (c : Char) : Bool := c.isDigit || c == '_'

def isSign (c : Char) : Bool := c == '+' || c == '-'

def dropSign : List Char → List Char
  | [] => []
  | c :: rest => if isSign c then rest else c :: rest

/-- A digit, then digits and low lines. -/
def isNumeral : List Char → Bool
  | [] => false
  | c :: rest => c.isDigit && rest.all isDigitPart

/-- A number of minutes or seconds: at most 59, in one or two digits. -/
def isSixtieth : List Char → Bool
  | [a] => a.isDigit
  | [a, b] => '0' ≤ a && a ≤ '5' && b.isDigit
  | _ => false

/-- A signed exponent, or nothing. -/
def isExponent : List Char → Bool
  | [] => true
  | e :: sign :: digits =>
    (e == 'e' || e == 'E') && isSign sign && !digits.isEmpty && digits.all Char.isDigit
  | _ => false

/-- Split at the first point. -/
def splitPoint (s : List Char) : Option (List Char × List Char) :=
  if s.contains '.' then some (s.takeWhile (· != '.'), (s.dropWhile (· != '.')).drop 1) else none

/-- A fraction in sixties: a numeral, then parts after colons, the last with a point. -/
def isSixtyReal (s : List Char) : Bool :=
  match Text.cutAt (· == ':') s with
  | whole :: parts =>
    isNumeral whole && match parts.reverse with
      | [] => false
      | last :: inner =>
        inner.all isSixtieth && match splitPoint last with
          | some (sixtieth, rest) => isSixtieth sixtieth && rest.all isDigitPart
          | none => false
  | [] => false

def isReal (s : List Char) : Bool :=
  let body := dropSign s
  [".inf", ".Inf", ".INF"].any (·.toList == body)
    || [".nan", ".NaN", ".NAN"].any (·.toList == s)
    || isSixtyReal body
    || match splitPoint body with
      | none => false
      | some (whole, rest) =>
        let fraction := rest.takeWhile isDigitPart
        isExponent (rest.drop fraction.length)
          && (isNumeral whole || (s.head? == some '.' && isNumeral fraction))

/-- A whole number in sixties. -/
def isSixtyWhole (s : List Char) : Bool :=
  match Text.cutAt (· == ':') s with
  | whole :: part :: parts =>
    isNumeral whole && whole.head? != some '0' && (part :: parts).all isSixtieth
  | _ => false

def isHexDigit (c : Char) : Bool := (Json.hexValue? c).isSome

def isWhole (s : List Char) : Bool :=
  match dropSign s with
  | ['0'] => true
  | '0' :: 'b' :: rest => !rest.isEmpty && rest.all fun c => c == '0' || c == '1' || c == '_'
  | '0' :: 'x' :: rest => !rest.isEmpty && rest.all fun c => isHexDigit c || c == '_'
  | '0' :: rest => rest.all fun c => ('0' ≤ c && c ≤ '7') || c == '_'
  | body => isNumeral body || isSixtyWhole body

/-- Texts of truth values in lower case. -/
def truthOf? : List Char → Option Bool
  | ['y', 'e', 's'] => some true
  | ['t', 'r', 'u', 'e'] => some true
  | ['o', 'n'] => some true
  | ['n', 'o'] => some false
  | ['f', 'a', 'l', 's', 'e'] => some false
  | ['o', 'f', 'f'] => some false
  | _ => none

def lowered (s : List Char) : List Char := s.map fun c => Char.ofNat (Text.lower c.toNat)

def raised (s : List Char) : List Char := s.map fun c => Char.ofNat (Text.asciiUpper c.toNat)

/-- A word of lower case, of capitals, or with a capital first. -/
def isEvenlyCased (s word : List Char) : Bool :=
  s == word || s == raised word || s == raised (word.take 1) ++ word.drop 1

def truthWords : List (List Char) :=
  ["yes", "no", "true", "false", "on", "off"].map String.toList

def isTruth (s : List Char) : Bool := truthWords.any (isEvenlyCased s)

def isNull (s : List Char) : Bool := s.isEmpty || s == ['~'] || isEvenlyCased s "null".toList

/-! ## Moments -/

/-- The time of day of a moment, as it is written. -/
structure ClockTime where
  hour : List Char
  minute : List Char
  second : List Char
  fraction : List Char
  /-- Nothing; universal time; or a sign with hours and minutes. -/
  zone : Option (Option (Char × List Char × List Char))

/-- A day with or without a time of day, as it is written. -/
structure WrittenMoment where
  year : List Char
  month : List Char
  day : List Char
  time : Option ClockTime

/-- Some digits, at least `least` and at most `most`. -/
def takeDigits (least most : Nat) (s : List Char) : Option (List Char × List Char) :=
  let digits := (s.take most).takeWhile Char.isDigit
  if digits.length < least then none else some (digits, s.drop digits.length)

def takeChar (c : Char) : List Char → Option (List Char)
  | [] => none
  | d :: rest => if d = c then some rest else none

/-- The end of a moment: a fraction of a second and a zone, both of which may be left out. -/
def takeZone (s : List Char) : Option (Option (Option (Char × List Char × List Char))) :=
  if s.isEmpty then some none
  else
    match s.dropWhile isBlank with
    | ['Z'] => some (some none)
    | sign :: rest =>
      if isSign sign then do
        let (hour, rest) ← takeDigits 1 2 rest
        match rest with
        | [] => some (some (some (sign, hour, [])))
        | _ => do
          let rest ← takeChar ':' rest
          let (minute, rest) ← takeDigits 2 2 rest
          if rest.isEmpty then some (some (some (sign, hour, minute))) else none
      else none
    | [] => none

def takeTime (s : List Char) : Option ClockTime := do
  let (hour, s) ← takeDigits 1 2 s
  let s ← takeChar ':' s
  let (minute, s) ← takeDigits 2 2 s
  let s ← takeChar ':' s
  let (second, s) ← takeDigits 2 2 s
  let (fraction, s) := match s with
    | '.' :: rest => (rest.takeWhile Char.isDigit, rest.dropWhile Char.isDigit)
    | _ => ([], s)
  let zone ← takeZone s
  pure ⟨hour, minute, second, fraction, zone⟩

/-- What stands between a day and a time of day. -/
def takeGap (s : List Char) : Option (List Char) :=
  match s with
  | 'T' :: rest => some rest
  | 't' :: rest => some rest
  | c :: rest => if isBlank c then some (rest.dropWhile isBlank) else none
  | [] => none

def readWritten (s : List Char) : Option WrittenMoment := do
  let (year, s) ← takeDigits 4 4 s
  let s ← takeChar '-' s
  let (month, s) ← takeDigits 1 2 s
  let s ← takeChar '-' s
  let (day, s) ← takeDigits 1 2 s
  if s.isEmpty then pure ⟨year, month, day, none⟩
  else do
    let s ← takeGap s
    let time ← takeTime s
    pure ⟨year, month, day, some time⟩

/-- A day alone needs two digits for month and day. -/
def isMoment (s : List Char) : Bool :=
  match readWritten s with
  | none => false
  | some w => w.time.isSome || (w.month.length == 2 && w.day.length == 2)

/-- The kind of a plain text. -/
def kindOf (s : List Char) : Kind :=
  if isTruth s then .truth
  else if isReal s then .real
  else if isWhole s then .whole
  else if s == ['<', '<'] then .merge
  else if isNull s then .null
  else if isMoment s then .moment
  else if s == ['='] then .default
  else if s == ['!'] || s == ['&'] || s == ['*'] then .unknown
  else .text

/-- The kind that a tag names. -/
def kindOfTag : String → Kind
  | "tag:yaml.org,2002:null" => .null
  | "tag:yaml.org,2002:bool" => .truth
  | "tag:yaml.org,2002:int" => .whole
  | "tag:yaml.org,2002:float" => .real
  | "tag:yaml.org,2002:timestamp" => .moment
  | "tag:yaml.org,2002:str" => .text
  | "tag:yaml.org,2002:seq" => .list
  | "tag:yaml.org,2002:map" => .map
  | "tag:yaml.org,2002:merge" => .merge
  | "tag:yaml.org,2002:value" => .default
  | _ => .unknown

def Node.kind : Node → Kind
  | .scalar .byText text _ => kindOf text.toList
  | .scalar .byShape _ _ => .text
  | .scalar (.named name) _ _ => kindOfTag name
  | .sequence (.named name) _ _ => kindOfTag name
  | .sequence _ _ _ => .list
  | .mapping (.named name) _ _ => kindOfTag name
  | .mapping _ _ _ => .map

/-! ## Reading values -/

/-- The value of a digit in a base up to sixteen. -/
def baseDigit? (base : Nat) (c : Char) : Option Nat := do
  let d ← Json.hexValue? c
  if d < base then some d else none

/-- Whether `0` and a letter may stand before the digits of a base. -/
def basePrefix? : Nat → Option Char
  | 2 => some 'b'
  | 8 => some 'o'
  | 16 => some 'x'
  | _ => none

def dropBase (base : Nat) : List Char → List Char
  | '0' :: c :: rest =>
    if basePrefix? base == some (Char.ofNat (Text.asciiLower c.toNat)) then rest
    else '0' :: c :: rest
  | s => s

/-- A whole number in a base that is a power of two. -/
def readBase (base : Nat) (s : List Char) : Except Fault Int :=
  let body := Text.trim Text.isNumeralBlank s
  let digits := dropBase base (dropSign body)
  match digits.mapM (baseDigit? base) with
  | some (d :: ds) =>
    let n : Int := Text.ofDigits base (d :: ds)
    .ok (if body.head? == some '-' then -n else n)
  | _ => .error (.badDigits base (String.ofList s))

def readDecimal (s : List Char) : Except Fault Int :=
  match Text.readInt (String.ofList s) with
  | .ok n => .ok n
  | .error .malformed => .error (.badDigits 10 (String.ofList s))
  | .error (.tooLong digits) => .error (.tooLong digits)

/-- Parts from the highest, each worth sixty of the next. -/
def sixties (parts : List Int) : Int := parts.foldl (fun n d => n * 60 + d) 0

def signed (s : List Char) (n : Int) : Int := if s.head? == some '-' then -n else n

def readWhole (s : List Char) : Except Fault Int :=
  let s := s.filter (· != '_')
  let body := dropSign s
  if body == ['0'] then .ok 0
  else do
    let n ←
      match body with
      | [] => .error .blankNumber
      | '0' :: 'b' :: rest => readBase 2 rest
      | '0' :: 'x' :: rest => readBase 16 rest
      | '0' :: _ => readBase 8 body
      | _ =>
        if body.contains ':' then do
          let parts ← (Text.cutAt (· == ':') body).mapM readDecimal
          pure (sixties parts)
        else readDecimal body
    pure (signed s n)

/-- A decimal fraction, or one of the words for infinity and for no number. -/
def readFraction (s : List Char) : Except Fault Double :=
  let body := Text.trim Text.isNumeralBlank s
  let negative := body.head? == some '-'
  let digits := dropSign body
  if ["inf", "infinity"].any (·.toList == digits) then .ok (.infinite negative)
  else if digits == "nan".toList then .ok .nan
  else
    let whole := digits.takeWhile Char.isDigit
    let (fraction, rest) := match digits.drop whole.length with
      | '.' :: rest => (rest.takeWhile Char.isDigit, rest.dropWhile Char.isDigit)
      | rest => ([], rest)
    let (exponent, rest) := Json.readExponent rest
    if (whole.isEmpty && fraction.isEmpty) || !rest.isEmpty then
      .error (.badFraction (String.ofList s))
    else
      let shift : Int := match exponent with
        | none => 0
        | some (true, digits) => -(min (Json.digitsValue digits) 100000 : Nat)
        | some (false, digits) => (min (Json.digitsValue digits) 100000 : Nat)
      .ok (.ofDecimal negative (Json.digitsValue (whole ++ fraction)) (shift - fraction.length))

/-- Parts from the lowest on; `base` is the worth of the next. -/
def sixtyFractions : Int → Double → List Double → Double
  | _, sum, [] => sum
  | base, sum, d :: rest => sixtyFractions (base * 60) (sum.add (d.mul (.ofInt base))) rest

/-- The most parts that a fraction in sixties may have: no double holds the next power of sixty. -/
def sixtyLimit : Nat := 174

def readReal (s : List Char) : Except Fault Double :=
  let s := lowered (s.filter (· != '_'))
  let body := dropSign s
  if s.isEmpty then .error .blankNumber
  else do
    let x ←
      if body == ".inf".toList then .ok (.infinite false)
      else if body == ".nan".toList then .ok .nan
      else if body.contains ':' then do
        let parts ← (Text.cutAt (· == ':') body).mapM readFraction
        if sixtyLimit < parts.length then .error .tooManySixties
        else pure (sixtyFractions 1 (.ofInt 0) parts.reverse)
      else readFraction body
    pure (if s.head? == some '-' then x.neg else x)

/-- The distance of a zone from universal time, less than a day. -/
def readOffset : Option (Option (Char × List Char × List Char)) → Except Fault (Option Int)
  | none => .ok none
  | some none => .ok (some 0)
  | some (some (sign, hour, minute)) =>
    let seconds : Int := Json.digitsValue hour * 3600 + Json.digitsValue minute * 60
    let offset := if sign = '-' then -seconds else seconds
    if seconds < 86400 then .ok (some offset) else .error (.offsetOutOfRange offset)

/-- A day of the calendar. -/
def checkDay (year month day : Nat) : Except Fault Unit :=
  if year = 0 then .error (.yearOutOfRange year)
  else if month = 0 ∨ 12 < month then .error .monthOutOfRange
  else if Timestamp.isDay year month day then .ok ()
  else .error .dayOutOfRange

/-- The first six digits of a fraction as millionths. -/
def micros (fraction : List Char) : Nat :=
  Json.digitsValue ((fraction ++ List.replicate 6 '0').take 6)

def readMoment (s : List Char) : Except Fault Timestamp :=
  match readWritten s with
  | none => .error .noMoment
  | some w =>
    let year := Json.digitsValue w.year
    let month := Json.digitsValue w.month
    let day := Json.digitsValue w.day
    match w.time with
    | none => do
      checkDay year month day
      pure (.day year month day)
    | some t => do
      let hour := Json.digitsValue t.hour
      let minute := Json.digitsValue t.minute
      let second := Json.digitsValue t.second
      let offset ← readOffset t.zone
      checkDay year month day
      if 23 < hour then .error .hourOutOfRange
      else if 59 < minute then .error .minuteOutOfRange
      else if 59 < second then .error .secondOutOfRange
      else pure (.moment year month day hour minute second (micros t.fraction) offset)

/-- The value of a scalar of some kind, at a line. -/
def scalarValue (kind : Kind) (text : String) (line : Nat) : Except Fault Datum :=
  match kind with
  | .null => .ok .null
  | .truth =>
    let s := lowered text.toList
    match truthOf? s with
    | some b => .ok (.bool b)
    | none => .error (.noTruthValue (String.ofList s))
  | .whole => (readWhole text.toList).map .int
  | .real => (readReal text.toList).map .real
  | .moment => (readMoment text.toList).map .time
  | .text => .ok (.text text)
  | _ => .error (.malformed line)

end Neogrammar.Yaml
