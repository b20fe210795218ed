/-
Numbers of double precision, exactly: a decimal number becomes the nearest
double, and a double is written with the fewest digits that read back as it.
All is counted in natural numbers.
-/

namespace Bundler

/-- A number of double precision. A finite one is its mantissa times a power
of two, up to the sign. -/
inductive Double where
  | finite (negative : Bool) (mantissa : Nat) (exponent : Int)
  | infinite (negative : Bool)
  | notANumber
deriving DecidableEq, Repr

namespace Double

/-! ## From decimal numbers -/

/-- The least exponent of a double. -/
def minExponent : Int := -1074
/-- The bound of mantissas. -/
def mantissaBound : Nat := Nat.pow 2 53
/-- The exponent at which a full mantissa is too large. -/
def overflowExponent : Int := 972

/-- The nearest number to a quotient, an even one if two are as near. -/
def roundDiv (num den : Nat) : Nat :=
  let floor := num / den
  let rest := 2 * (num % den)
  if rest < den then floor
  else if den < rest then floor + 1
  else floor + floor % 2

/-- A quotient of powers: `a * base ^ e` over one. -/
def scaleUp (base a : Nat) (e : Int) : Nat × Nat :=
  if e ≥ 0 then (a * Nat.pow base e.toNat, 1) else (a, Nat.pow base (-e).toNat)

/-- The double nearest to a quotient. -/
def ofQuotient (negative : Bool) (num den : Nat) : Double :=
  if num = 0 then finite negative 0 minExponent
  else
    let size : Int := Int.ofNat num.log2 - Int.ofNat den.log2
    let low := max minExponent (size - 53)
    let scaled (e : Int) : Nat × Nat :=
      let (a, b) := scaleUp 2 1 e
      (num * b, den * a)
    let exponent :=
      let (a, b) := scaled low
      if a / b < mantissaBound then low else low + 1
    let (a, b) := scaled exponent
    let mantissa := roundDiv a b
    let (mantissa, exponent) :=
      if mantissa = mantissaBound then (mantissa / 2, exponent + 1) else (mantissa, exponent)
    if exponent ≥ overflowExponent then infinite negative else finite negative mantissa exponent

/-- The double nearest to some digits times a power of ten. -/
def ofDecimal (negative : Bool) (digits : Nat) (exponent : Int) : Double :=
  let (num, den) := scaleUp 10 digits exponent
  ofQuotient negative num den

/-! ## To decimal numbers -/

/-- Whether `a * 10 ^ e` is at most `b * 2 ^ f`, or below it. -/
def decimalLe (strict : Bool) (a : Nat) (e : Int) (b : Nat) (f : Int) : Bool :=
  let (an, ad) := scaleUp 10 a e
  let (bn, bd) := scaleUp 2 b f
  if strict then an * bd < bn * ad else an * bd ≤ bn * ad

/-- Whether `b * 2 ^ f` is at most `a * 10 ^ e`, or below it. -/
def binaryLe (strict : Bool) (b : Nat) (f : Int) (a : Nat) (e : Int) : Bool :=
  !decimalLe (!strict) a e b f

/-- Whether a decimal number is nearer to a double than to its neighbours. One
half way between two belongs to the even one. -/
def readsBack (mantissa : Nat) (exponent : Int) (a : Nat) (e : Int) : Bool :=
  let strict := mantissa % 2 == 1
  let gap := if mantissa = mantissaBound / 2 && exponent > minExponent then 1 else 2
  binaryLe strict (4 * mantissa - gap) (exponent - 2) a e &&
    decimalLe strict a e (4 * mantissa + 2) (exponent - 2)

/-- The place of the first digit of a quotient that is not zero. -/
def firstPlace (num den : Nat) : Int :=
  if num ≥ den then Int.ofNat ((Nat.toDigits 10 (num / den)).length - 1)
  else go 400 1
where
  go : Nat → Nat → Int
    | 0, places => -Int.ofNat places
    | fuel + 1, places => if num * Nat.pow 10 places ≥ den then -Int.ofNat places else go fuel (places + 1)

/-- The numbers of a grid next to a double, the nearer one first, and of two
that are as near the even one. -/
def neighbours (mantissa : Nat) (exponent place : Int) : List Nat :=
  let (n, d) := scaleUp 2 mantissa exponent
  let (p, q) := scaleUp 10 1 place
  let low := n * q / (d * p)
  let near := roundDiv (n * q) (d * p)
  if near = low then [low, low + 1] else [low + 1, low]

/-- Drops zeros from the end of digits. There are at most so many. -/
def dropZeros : Nat → Nat → Int → Nat × Int
  | 0, digits, place => (digits, place)
  | limit + 1, digits, place =>
    if digits % 10 = 0 && digits > 0 then dropZeros limit (digits / 10) (place + 1)
    else (digits, place)

/-- The fewest digits that read back as a double, and the place of the last. -/
def shortest (mantissa : Nat) (exponent : Int) : Nat × Int :=
  let (n, d) := scaleUp 2 mantissa exponent
  let first := firstPlace n d
  let tries := (List.range 17).flatMap fun i =>
    let place := first - Int.ofNat i
    (neighbours mantissa exponent place).map fun a => (a, place)
  let (digits, place) :=
    (tries.find? fun (a, place) => readsBack mantissa exponent a place).getD (0, 0)
  dropZeros 17 digits place

/-- Puts a point into digits, that many places before their end. -/
def withPoint (digits : List Char) (places : Nat) : List Char :=
  let padded := List.replicate (places + 1 - digits.length) '0' ++ digits
  let whole := padded.length - places
  padded.take whole ++ '.' :: padded.drop whole

/-- Digits in full, with a point and at least one digit after it. -/
def plainDigits (digits : List Char) (place : Int) : List Char :=
  if place ≥ 0 then digits ++ List.replicate place.toNat '0' ++ ['.', '0']
  else withPoint digits (-place).toNat

/-- Digits with an exponent. -/
def exponentDigits (digits : List Char) (place : Int) : List Char :=
  let power := place + Int.ofNat (digits.length - 1)
  let mantissa := match digits with
    | [] => []
    | [d] => [d]
    | d :: ds => d :: '.' :: ds
  mantissa ++ 'e' :: (toString power).toList

def sign (negative : Bool) : List Char := if negative then ['-'] else []

/-- A text for a finite double, given how its digits are set. -/
def renderWith (set : List Char → Int → List Char) : Double → String
  | notANumber => "NaN"
  | infinite negative => String.ofList (sign negative ++ "inf".toList)
  | finite negative mantissa exponent =>
    let (digits, place) := if mantissa = 0 then (0, 0) else shortest mantissa exponent
    String.ofList (sign negative ++ set (Nat.toDigits 10 digits) place)

/-- A double in full. -/
def plain : Double → String := renderWith plainDigits

/-- A double in full, unless it is large or small; it then has an exponent. -/
def compact : Double → String := renderWith fun digits place =>
  let point := Int.ofNat digits.length + place
  if -5 < point && point ≤ 16 then plainDigits digits place else exponentDigits digits place

end Double

end Bundler
