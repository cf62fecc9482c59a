/-!
# Characters without a picture

The characters of Unicode 17 that show nothing of their own: controls, formats, separators other
than the space, private use and fillers, as inclusive ranges in ascending order.
-/

namespace PinsSyntax.Unicode

/-- The ranges of the general category Cc. -/
def controls : List (Nat × Nat) :=
  [(0x0, 0x1f), (0x7f, 0x9f)]

/-- The ranges of the general category Cf. -/
def formats : List (Nat × Nat) :=
  [(0xad, 0xad), (0x600, 0x605), (0x61c, 0x61c), (0x6dd, 0x6dd), (0x70f, 0x70f), (0x890, 0x891),
    (0x8e2, 0x8e2), (0x180e, 0x180e), (0x200b, 0x200f), (0x202a, 0x202e), (0x2060, 0x2064),
    (0x2066, 0x206f), (0xfeff, 0xfeff), (0xfff9, 0xfffb), (0x110bd, 0x110bd), (0x110cd, 0x110cd),
    (0x13430, 0x1343f), (0x1bca0, 0x1bca3), (0x1d173, 0x1d17a), (0xe0001, 0xe0001),
    (0xe0020, 0xe007f)]

/-- The ranges of the general category Co. -/
def privateUse : List (Nat × Nat) :=
  [(0xe000, 0xf8ff), (0xf0000, 0xffffd), (0x100000, 0x10fffd)]

/-- The one character of the general category Zl. -/
def lineSeparators : List (Nat × Nat) :=
  [(0x2028, 0x2028)]

/-- The one character of the general category Zp. -/
def paragraphSeparators : List (Nat × Nat) :=
  [(0x2029, 0x2029)]

/-- The ranges of the general category Zs without the space. -/
def wideSpaces : List (Nat × Nat) :=
  [(0xa0, 0xa0), (0x1680, 0x1680), (0x2000, 0x200a), (0x202f, 0x202f), (0x205f, 0x205f),
    (0x3000, 0x3000)]

/-- The Hangul fillers, letters that are drawn as nothing. -/
def fillers : List (Nat × Nat) :=
  [(0x115f, 0x1160), (0x3164, 0x3164), (0xffa0, 0xffa0)]

end PinsSyntax.Unicode
