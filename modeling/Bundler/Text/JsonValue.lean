/-
JSON values. A number is an integer if it is written as one and fits in 64
bits, with a sign or without; otherwise it is the nearest double.
-/
import Bundler.Text.Double
import Bundler.Text.IntegerType

namespace Bundler

inductive JsonValue where
  | null
  | boolean (value : Bool)
  | integer (value : Int)
  | float (value : Double)
  | string (text : String)
  | array (items : List JsonValue)
  /-- Members in the order in which they are read. -/
  | object (members : List (String × JsonValue))
deriving Inhabited

namespace JsonValue

/-- The number that is written with these digits, so many of them after the
point. -/
def ofDecimal (digits : Int) (places : Nat) : JsonValue :=
  if places = 0 && (IntegerType.holds (.signed 64) digits || IntegerType.holds (.unsigned 64) digits) then
    integer digits
  else float (Double.ofDecimal (digits < 0) digits.natAbs (-Int.ofNat places))

end JsonValue

end Bundler
