/-
Values without parts as they are written bare: truth values, integers,
floating point numbers, dates and times. Each is recognised as a whole.
-/
import Bundler.Toml.Value

namespace Bundler.Toml

/-! ## Digits -/

/-- The value of a digit. -/
def digitValue? (c : Char) : Option Nat :=
  if '0' ≤ c && c ≤ '9' then some (c.toNat - '0'.toNat)
  else if 'a' ≤ c && c ≤ 'f' then some (c.toNat - 'a'.toNat + 10)
  else if 'A' ≤ c && c ≤ 'F' then some (c.toNat - 'A'.toNat + 10)
  else none

def isDigitOf (radix : Nat) (c : Char) : Bool :=
  match digitValue? c with
  | some d => d < radix
  | none => false

/-- The digits of a number, without the single underscores between them. -/
def digits? (radix : Nat) : List Char → Option (List Char)
  | [] => none
  | [c] => if isDigitOf radix c then some [c] else none
  | c :: '_' :: rest => if isDigitOf radix c then (digits? radix rest).map (c :: ·) else none
  | c :: rest => if isDigitOf radix c then (digits? radix rest).map (c :: ·) else none

def digitsValue (radix : Nat) (ds : List Char) : Nat :=
  ds.foldl (fun n c => n * radix + (digitValue? c).getD 0) 0

/-- Whether digits start with a zero that says nothing. -/
def hasLeadingZero : List Char → Bool
  | '0' :: _ :: _ => true
  | _ => false

/-- A sign, and what follows it. -/
def splitSign : List Char → Bool × List Char
  | '-' :: rest => (true, rest)
  | '+' :: rest => (false, rest)
  | rest => (false, rest)

/-! ## Numbers -/

def decimalInteger? (cs : List Char) : Option Int := do
  let (negative, cs) := splitSign cs
  let ds ← digits? 10 cs
  if hasLeadingZero ds then none
  else
    let n := Int.ofNat (digitsValue 10 ds)
    some (if negative then -n else n)

def integer? : List Char → Option Int
  | '0' :: 'x' :: cs => (digits? 16 cs).map fun ds => Int.ofNat (digitsValue 16 ds)
  | '0' :: 'o' :: cs => (digits? 8 cs).map fun ds => Int.ofNat (digitsValue 8 ds)
  | '0' :: 'b' :: cs => (digits? 2 cs).map fun ds => Int.ofNat (digitsValue 2 ds)
  | cs => decimalInteger? cs

def exponent? (cs : List Char) : Option Int := do
  let (negative, cs) := splitSign cs
  let n := Int.ofNat (digitsValue 10 (← digits? 10 cs))
  return if negative then -n else n

/-- Cuts at the first character that satisfies a test, and drops it. -/
def cutAt (p : Char → Bool) (cs : List Char) : List Char × Option (List Char) :=
  match cs.dropWhile (!p ·) with
  | [] => (cs, none)
  | _ :: rest => (cs.takeWhile (!p ·), some rest)

/-- No double has more places than this in either direction. -/
def maxPlaces : Int := 5000

/-- A number with a fraction, an exponent, or both. -/
def decimalFloat? (cs : List Char) : Option Double := do
  let (negative, cs) := splitSign cs
  let (mantissa, exponentPart) := cutAt (fun c => c = 'e' || c = 'E') cs
  let (whole, fraction) := cutAt (· = '.') mantissa
  if exponentPart.isNone && fraction.isNone then none
  else
    let whole ← digits? 10 whole
    let fraction ← match fraction with
      | none => some []
      | some ds => digits? 10 ds
    let exponent ← match exponentPart with
      | none => some 0
      | some e => exponent? e
    if hasLeadingZero whole then none
    else
      let exponent := max (-maxPlaces) (min maxPlaces exponent)
      some (Double.ofDecimal negative (digitsValue 10 (whole ++ fraction))
        (exponent - Int.ofNat fraction.length))

def float? (cs : List Char) : Option Double :=
  let (negative, magnitude) := splitSign cs
  if magnitude = "inf".toList then some (.infinite negative)
  else if magnitude = "nan".toList then some .notANumber
  else decimalFloat? cs

/-! ## Dates and times -/

/-- Exactly so many digits, at the start. -/
def fixedDigits? (count : Nat) (cs : List Char) : Option (Nat × List Char) :=
  let ds := cs.take count
  if ds.length = count && ds.all (isDigitOf 10) then some (digitsValue 10 ds, cs.drop count)
  else none

def isLeapYear (year : Nat) : Bool :=
  (year % 4 = 0 && year % 100 ≠ 0) || year % 400 = 0

def daysIn (year month : Nat) : Nat :=
  if month = 2 then (if isLeapYear year then 29 else 28)
  else if month = 4 || month = 6 || month = 9 || month = 11 then 30
  else 31

/-- What follows a date. -/
def afterDate? (cs : List Char) : Option (List Char) := do
  let (year, cs) ← fixedDigits? 4 cs
  let '-' :: cs := cs | none
  let (month, cs) ← fixedDigits? 2 cs
  let '-' :: cs := cs | none
  let (day, cs) ← fixedDigits? 2 cs
  if 1 ≤ month && month ≤ 12 && 1 ≤ day && day ≤ daysIn year month then some cs else none

/-- What follows a time. -/
def afterTime? (cs : List Char) : Option (List Char) := do
  let (hour, cs) ← fixedDigits? 2 cs
  let ':' :: cs := cs | none
  let (minute, cs) ← fixedDigits? 2 cs
  let ':' :: cs := cs | none
  let (second, cs) ← fixedDigits? 2 cs
  if hour ≤ 23 && minute ≤ 59 && second ≤ 60 then
    match cs with
    | '.' :: cs =>
      if (cs.head?.map (isDigitOf 10)).getD false then some (cs.dropWhile (isDigitOf 10)) else none
    | cs => some cs
  else none

/-- Whether this is a distance from universal time. -/
def isOffset (cs : List Char) : Bool :=
  match cs with
  | ['Z'] | ['z'] => true
  | sign :: cs =>
    (sign = '+' || sign = '-') &&
      (match fixedDigits? 2 cs with
      | some (hour, ':' :: cs) =>
        match fixedDigits? 2 cs with
        | some (minute, []) => hour ≤ 23 && minute ≤ 59
        | _ => false
      | _ => false)
  | [] => false

/-- Whether this is a date, a time, or both. Only both can have an offset. -/
def isDateTime (cs : List Char) : Bool :=
  afterTime? cs == some [] ||
    (match afterDate? cs with
    | some [] => true
    | some (c :: cs) =>
      (c = 'T' || c = 't' || c = ' ') &&
        (match afterTime? cs with
        | some [] => true
        | some cs => isOffset cs
        | none => false)
    | none => false)

/-- The value that a bare word is. -/
def bareValue? (span : Span) (word : List Char) : Option Value :=
  if word = "true".toList then some (.boolean span true)
  else if word = "false".toList then some (.boolean span false)
  else
    match integer? word, float? word with
    | some n, _ => some (.integer span n)
    | none, some d => some (.float span d)
    | none, none => if isDateTime word then some (.dateTime span) else none

end Bundler.Toml
