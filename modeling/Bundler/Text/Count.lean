/-
Counts as users write them: decimal digits, with a plus sign or without, below
a bound.
-/
import Bundler.Text.IntegerType

namespace Bundler

/-- Why a text is no count. -/
inductive CountFault where
  | empty
  | badDigit
  | tooLarge
deriving DecidableEq, Repr

def CountFault.message : CountFault → String
  | empty => "cannot parse integer from empty string"
  | badDigit => "invalid digit found in string"
  | tooLarge => "number too large to fit in target type"

namespace Count

/-- Counts are below this. -/
def bound : Nat := IntegerType.span 64

/-- Reads digits after a number read so far. The first fault counts: a
character that is no digit, or one with which the number gets too large. -/
def readDigits (soFar : Nat) : List Char → Except CountFault Nat
  | [] => .ok soFar
  | c :: cs =>
    if !c.isDigit then .error .badDigit
    else
      let n := soFar * 10 + (c.toNat - '0'.toNat)
      if n < bound then readDigits n cs else .error .tooLarge

/-- Reads a count. -/
def ofString (s : String) : Except CountFault Nat :=
  match s.toList with
  | [] => .error .empty
  | ['+'] => .error .badDigit
  | '+' :: cs => readDigits 0 cs
  | cs => readDigits 0 cs

end Count

end Bundler
