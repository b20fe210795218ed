/-
Integers of a fixed width, for the places where a text or a message depends on
which of them holds a number.
-/

namespace Bundler

/-- The integers that so many bits hold. -/
inductive IntegerType
  | signed (bits : Nat)
  | unsigned (bits : Nat)
deriving DecidableEq, Repr

namespace IntegerType

/-- How many numbers so many bits tell apart. -/
def span (bits : Nat) : Nat := Nat.pow 2 bits

/-- Whether a number is one of these. -/
def holds : IntegerType → Int → Bool
  | signed bits, n => -Int.ofNat (span (bits - 1)) ≤ n && n < Int.ofNat (span (bits - 1))
  | unsigned bits, n => 0 ≤ n && n < Int.ofNat (span bits)

end IntegerType

end Bundler
