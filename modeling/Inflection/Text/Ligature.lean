import Inflection.Text.Width

/-!
# Ligatures

Letters that are drawn as one with the letters before them.  A ligature is told from its end: the
last letter is a `Ligature`, and a letter before it may complete it or carry it on.
-/

namespace Inflection.Text

/-- The ranges of characters without a column of their own that part an Arabic lam from an alef. -/
def partingRanges : List (Nat × Nat) :=
  [(0x605, 0x605), (0x890, 0x891), (0x8e2, 0x8e2), (0x9be, 0x9be), (0x9d7, 0x9d7), (0xb3e, 0xb3e),
   (0xb57, 0xb57), (0xbbe, 0xbbe), (0xbd7, 0xbd7), (0xcc0, 0xcc0), (0xcc2, 0xcc2), (0xcc7, 0xcc8),
   (0xcca, 0xccb), (0xcd5, 0xcd6), (0xd3e, 0xd3e), (0xd4e, 0xd4e), (0xd57, 0xd57), (0xdcf, 0xdcf),
   (0xddf, 0xddf), (0x1160, 0x11ff), (0x1715, 0x1715), (0x1734, 0x1734), (0x180e, 0x180e),
   (0x1b35, 0x1b35), (0x1b3b, 0x1b3b), (0x1b3d, 0x1b3d), (0x1b43, 0x1b44), (0x1baa, 0x1baa),
   (0x1bf2, 0x1bf3), (0x200c, 0x200d), (0x2065, 0x2069), (0x302e, 0x302f), (0x3164, 0x3164),
   (0xa8fa, 0xa8fa), (0xa953, 0xa953), (0xa9c0, 0xa9c0), (0xd7b0, 0xd7c6), (0xd7cb, 0xd7fb),
   (0xffa0, 0xffa0), (0xfff0, 0xfff8), (0x111c0, 0x111c0), (0x111c2, 0x111c3), (0x11235, 0x11235),
   (0x1133e, 0x1133e), (0x1134d, 0x1134d), (0x11357, 0x11357), (0x113b8, 0x113b8),
   (0x113c2, 0x113c2), (0x113c5, 0x113c5), (0x113c7, 0x113c9), (0x113cf, 0x113cf),
   (0x113d1, 0x113d1), (0x114b0, 0x114b0), (0x114bd, 0x114bd), (0x115af, 0x115af),
   (0x116b6, 0x116b6), (0x11930, 0x11930), (0x1193d, 0x1193d), (0x1193f, 0x1193f),
   (0x11941, 0x11941), (0x11a84, 0x11a89), (0x11d46, 0x11d46), (0x11f02, 0x11f02),
   (0x11f41, 0x11f41), (0x16ff0, 0x16ff1), (0x1d165, 0x1d166), (0x1d16d, 0x1d172),
   (0xe0000, 0xe0000), (0xe0002, 0xe001f), (0xe0080, 0xe00ff), (0xe01f0, 0xe0fff)]

/-- Whether a character may stand between an Arabic lam and the alef drawn as one with it. -/
def isTransparent (c : Char) : Bool := charWidth c = 0 && !inRanges partingRanges c

/-- Whether a character is a form of the Arabic letter lam. -/
def isLam (c : Char) : Bool :=
  inRanges [(0x644, 0x644), (0x6b5, 0x6b8), (0x76a, 0x76a), (0x8a6, 0x8a6), (0x8c7, 0x8c7)] c

/-- Whether a character is a form of the Arabic letter alef. -/
def isAlef (c : Char) : Bool :=
  inRanges [(0x622, 0x623), (0x625, 0x625), (0x627, 0x627), (0x671, 0x673), (0x675, 0x675),
    (0x773, 0x774), (0x870, 0x882)] c

/-- Whether a character is a mark to be ignored, which parts no letters but Arabic ones. -/
def isIgnorableMark (c : Char) : Bool :=
  inRanges [(0x34f, 0x34f), (0x17b4, 0x17b5), (0x180b, 0x180d), (0x180f, 0x180f),
    (0xfe00, 0xfe0f), (0xe0100, 0xe01ef)] c

/-- Whether a character is a Khmer letter that a subscript sign before it draws below. -/
def isKhmerSubscript (c : Char) : Bool :=
  inRanges [(0x1780, 0x1782), (0x1784, 0x1787), (0x1789, 0x178c), (0x178e, 0x1793),
    (0x1795, 0x1798), (0x179b, 0x179d), (0x17a0, 0x17a0), (0x17a2, 0x17a2), (0x17a7, 0x17a7),
    (0x17ab, 0x17ac), (0x17af, 0x17af)] c

/-- Whether a character is a Tifinagh consonant. -/
def isTifinaghConsonant (c : Char) : Bool :=
  (0x2d31 ≤ c.toNat && c.toNat ≤ 0x2d65) || c = '\u2d6f'

/-- The end of a ligature. -/
inductive Ligature where
  /-- Hebrew lamed, which an alef completes. -/
  | lamed
  /-- Buginese ya, which the vowel sign i carries on. -/
  | ya
  /-- Buginese ya after the vowel sign i, which an a completes. -/
  | signAndYa
  /-- A Tifinagh consonant, which another completes, at once or by a consonant joiner. -/
  | consonant
  /-- A Tifinagh consonant after a consonant joiner, which another completes. -/
  | joinedConsonant
  /-- A Lisu tone letter, which a tone letter of the first kind completes. -/
  | toneLetter
  /-- Old Turkic i, which an ec completes. -/
  | orkhonI
  /-- A Khmer letter, which the subscript sign draws below the letter before. -/
  | subscript
deriving DecidableEq, Repr

namespace Ligature

/-- The ligature that a letter may be the end of. -/
def ending? (c : Char) : Option Ligature :=
  if c = '\u05dc' then some .lamed
  else if c = '\u1a10' then some .ya
  else if isTifinaghConsonant c then some .consonant
  else if c = '\ua4fc' || c = '\ua4fd' then some .toneLetter
  else if c = Char.ofNat 0x10c03 then some .orkhonI
  else if isKhmerSubscript c then some .subscript
  else none

/-- What a letter before the ligature adds to its columns, and the ligature it carries on, if it
does not complete it; none for a letter that stays apart.  Some letters are drawn as one only
after a joiner. -/
def before? (joined : Bool) (c : Char) : Ligature → Option (Int × Option Ligature)
  | .lamed => if joined && c = '\u05d0' then some (0, none) else none
  | .ya => if joined && c = '\u1a17' then some (0, some .signAndYa) else none
  | .signAndYa => if c = '\u1a15' then some (0, none) else none
  | .consonant =>
    if c = '\u2d7f' then some (1, some .joinedConsonant)
    else if joined && isTifinaghConsonant c then some (0, none)
    else none
  | .joinedConsonant => if isTifinaghConsonant c then some (-1, none) else none
  | .toneLetter => if 0xa4f8 ≤ c.toNat && c.toNat ≤ 0xa4fb then some (0, none) else none
  | .orkhonI => if joined && c = Char.ofNat 0x10c32 then some (0, none) else none
  | .subscript => if c = '\u17d2' then some (-1, none) else none

end Ligature

end Inflection.Text
