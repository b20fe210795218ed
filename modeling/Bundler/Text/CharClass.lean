/-
Classes of characters that several formats share, as ranges of code points:
white space, and characters that have no shape of their own.
-/

namespace Bundler

/-- A set of characters as inclusive ranges of code points. -/
abbrev CharRanges := List (Nat × Nat)

def CharRanges.has (rs : CharRanges) (c : Char) : Bool :=
  rs.any fun (lo, hi) => lo ≤ c.toNat && c.toNat ≤ hi

/-- The characters that have the property White_Space. -/
def isWhiteSpace (c : Char) : Bool :=
  CharRanges.has [(9, 13), (32, 32), (0x85, 0x85), (0xa0, 0xa0), (0x1680, 0x1680),
    (0x2000, 0x200a), (0x2028, 0x2029), (0x202f, 0x202f), (0x205f, 0x205f), (0x3000, 0x3000)] c

/-- A character that a message shows as its code point, since it has no
shape of its own. -/
def isUnprintable (c : Char) : Bool :=
  CharRanges.has [(0, 31), (127, 160), (0xad, 0xad), (0x600, 0x605), (0x61c, 0x61c), (0x6dd, 0x6dd),
    (0x300, 0x36f), (0x180e, 0x180e), (0x2000, 0x200f), (0x2028, 0x202f), (0x205f, 0x206f),
    (0x3000, 0x3000), (0xe000, 0xf8ff), (0xfe00, 0xfe0f), (0xfeff, 0xfeff), (0xfff0, 0xfffb),
    (0xfffe, 0xffff), (0xe0000, 0x10ffff)] c

end Bundler
