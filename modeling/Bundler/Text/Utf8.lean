/-
Text as UTF-8 bytes, and bytes as they are shown. Bytes that are no text are
read as far as they go: each longest run of bytes that could have begun a
character but does not is shown as one replacement character.
-/

namespace Bundler.Utf8

/-- The bytes of a text. -/
def encode (s : String) : List UInt8 := s.toUTF8.data.toList

/-- The text that some bytes are, if they are one. -/
def decode? (bytes : List UInt8) : Option String := String.fromUTF8? ⟨bytes.toArray⟩

/-- The character that stands for bytes that are none. -/
def replacement : Char := '\ufffd'

def isContinuation (b : UInt8) : Bool := 0x80 ≤ b && b ≤ 0xbf

/-- What a first byte calls for: how many more bytes, and which values the
second may have. -/
def sequence? (b : UInt8) : Option (Nat × UInt8 × UInt8) :=
  if 0xc2 ≤ b && b ≤ 0xdf then some (1, 0x80, 0xbf)
  else if b == 0xe0 then some (2, 0xa0, 0xbf)
  else if b == 0xed then some (2, 0x80, 0x9f)
  else if 0xe1 ≤ b && b ≤ 0xef then some (2, 0x80, 0xbf)
  else if b == 0xf0 then some (3, 0x90, 0xbf)
  else if 0xf1 ≤ b && b ≤ 0xf3 then some (3, 0x80, 0xbf)
  else if b == 0xf4 then some (3, 0x80, 0x8f)
  else none

/-- The bytes that continue a sequence: at most `count`, the first of them
between the bounds. -/
def continuation (count : Nat) (low high : UInt8) : List UInt8 → List UInt8
  | [] => []
  | b :: rest =>
    if count > 0 && low ≤ b && b ≤ high then b :: (rest.take (count - 1)).takeWhile isContinuation
    else []

/-- The code point that a first byte with these continuations encodes. -/
def codePoint (first : UInt8) (more : List UInt8) : Nat :=
  let bits := first.toNat % Nat.pow 2 (6 - more.length)
  more.foldl (fun n b => n * 64 + b.toNat % 64) bits

/-- The first character of some bytes, and how many of them it takes. -/
def firstChar (b : UInt8) (rest : List UInt8) : Char × Nat :=
  if b < 0x80 then (Char.ofNat b.toNat, 1)
  else
    match sequence? b with
    | none => (replacement, 1)
    | some (count, low, high) =>
      let more := continuation count low high rest
      if more.length == count then (Char.ofNat (codePoint b more), count + 1)
      else (replacement, more.length + 1)

/-- The text of some bytes, with replacements for those that are no text. -/
def decodeLossy (bytes : List UInt8) : String :=
  String.ofList (go bytes.length bytes)
where
  go : Nat → List UInt8 → List Char
    | 0, _ | _, [] => []
    | fuel + 1, b :: rest =>
      let (c, n) := firstChar b rest
      c :: go fuel ((b :: rest).drop n)

end Bundler.Utf8
