import Inflection.Text.Ligature
import Inflection.Text.Picture

/-!
# Columns of a text

The number of columns that a text fills.  It is the sum over its characters, but for characters
that are shown as one: pictures with a selector, a skin tone or joiners between them, and
ligatures.  What a character adds depends on what stands after it, so a text is read from its end,
and an `Ahead` says what the part read so far lets the next character do.
-/

namespace Inflection.Text

/-- The invisible character that joins the characters on its sides. -/
def joiner : Char := '\u200d'

/-- A mark that chooses between the forms of the character before it. -/
inductive Selector where
  /-- The form as text. -/
  | text
  /-- The form as a picture. -/
  | picture
  /-- The wide form of a quotation mark. -/
  | wide
deriving DecidableEq, Repr

/-- The selector that a character is. -/
def Selector.ofChar? (c : Char) : Option Selector :=
  if c = '\ufe0e' then some .text
  else if c = '\ufe0f' then some .picture
  else if c = '\ufe01' then some .wide
  else none

/-- Whether a character is one of the quotation marks that have a wide form. -/
def isQuotationMark (c : Char) : Bool :=
  c = '\u2018' || c = '\u2019' || c = '\u201c' || c = '\u201d'

/-- The start of the text read so far, as far as a character before it may join it. -/
inductive Tail where
  /-- Nothing to join. -/
  | apart
  /-- A picture. -/
  | picture
  /-- A skin tone. -/
  | skinTone
  /-- A letter of a flag. -/
  | flagLetter
  /-- More than one letter of flags. -/
  | flagLetters
  /-- A joiner and a picture. -/
  | joinedPicture
  /-- The mark of a key, a joiner and a picture. -/
  | joinedKey
  /-- A letter of a flag, a joiner and a picture. -/
  | joinedFlagLetter
  /-- More than one letter of flags, a joiner and a picture; whether the flags are complete. -/
  | joinedFlags (complete : Bool)
  /-- The end of the tag of a flag, a joiner and a picture, with some letters of the tag and some
  digits before these. -/
  | joinedTag (letters digits : Nat)
  /-- The letter alef. -/
  | alef
  /-- The end of a ligature, with or without a joiner before it. -/
  | ligature (ending : Ligature) (joined : Bool)
  /-- The vowel sign e of Kirat Rai. -/
  | vowelE
  /-- The vowel sign ai of Kirat Rai. -/
  | vowelAi
deriving DecidableEq, Repr

namespace Tail

/-- The tail that a character leaves by itself. -/
def ofChar (c : Char) : Tail :=
  if isPicture c then .picture
  else if isSkinTone c then .skinTone
  else if isFlagLetter c then .flagLetter
  else if isAlef c then .alef
  else if c = Char.ofNat 0x16d67 then .vowelE
  else if c = Char.ofNat 0x16d68 then .vowelAi
  else
    match Ligature.ending? c with
    | some ending => .ligature ending false
    | none => .apart

/-- Whether the tail is of letters, which no selector parts from the letters before. -/
def ofLetters : Tail → Bool
  | .alef | .ligature _ _ => true
  | _ => false

/-- Whether the tail begins with a joined picture that the picture before a selector joins. -/
def joinsSelected : Tail → Bool
  | .joinedPicture | .joinedKey => true
  | _ => false

/-- The tail before a selector. -/
def select (t : Tail) (s : Selector) : Tail :=
  if t.ofLetters || (s == .picture && t.joinsSelected) then t else .apart

/-- The columns that a character adds before a tag of a flag, and the tail it leaves.  A tag is of
three to six letters, or of three digits and up to four letters, and stands after a black flag. -/
def beforeTag? (letters digits : Nat) (c : Char) : Option (Int × Tail) :=
  if isTagLetter c && digits == 0 && letters < 6 then some (0, .joinedTag (letters + 1) 0)
  else if isTagDigit c && digits < 3 && letters ≤ 4 then some (0, .joinedTag letters (digits + 1))
  else if c = Char.ofNat 0x1f3f4 && (digits == 3 || (digits == 0 && 3 ≤ letters)) then
    some (0, .picture)
  else none

/-- The columns that a character adds when it joins a tail, and the tail it leaves; none for a
character that stays apart. -/
def before? (t : Tail) (c : Char) : Option (Int × Tail) :=
  match t with
  | .picture => if c = joiner then some (0, .joinedPicture) else none
  | .skinTone =>
    if c = joiner then some (0, .joinedPicture)
    else if showsSkin c then some (0, .picture)
    else none
  | .flagLetter => if isFlagLetter c then some (1, .flagLetters) else none
  | .flagLetters =>
    if c = joiner then some (0, .joinedPicture)
    else if isFlagLetter c then some (1, .flagLetters)
    else none
  | .joinedPicture =>
    if c = '\u20e3' then some (0, .joinedKey)
    else if isFlagLetter c then some (1, .joinedFlagLetter)
    else if isSkinTone c then some (0, .skinTone)
    else if c = Char.ofNat 0xe007f then some (0, .joinedTag 0 0)
    else if isPicture c then some (0, .picture)
    else none
  | .joinedFlagLetter => if isFlagLetter c then some (-1, .joinedFlags true) else none
  | .joinedFlags complete =>
    if c = joiner then some (0, .joinedPicture)
    else if isFlagLetter c then some (if complete then 3 else -1, .joinedFlags !complete)
    else none
  | .joinedTag letters digits => beforeTag? letters digits c
  | .alef =>
    if isLam c then some (0, .apart)
    else if isTransparent c then some (0, .alef)
    else none
  | .ligature ending joined =>
    if c = joiner then some (0, .ligature ending true)
    else if isIgnorableMark c then some (0, t)
    else
      (ending.before? joined c).map fun (columns, rest) =>
        (columns, (rest.map (.ligature · false)).getD .apart)
  | .vowelE =>
    if c = Char.ofNat 0x16d63 || c = Char.ofNat 0x16d69 then some (0, .apart)
    else if c = Char.ofNat 0x16d67 then some (0, .vowelAi)
    else if c = Char.ofNat 0x16d68 then some (1, .vowelE)
    else none
  | .vowelAi => if c = Char.ofNat 0x16d63 then some (0, .apart) else none
  | .apart | .joinedKey => none

end Tail

/-- What the text read so far lets the character before it do. -/
structure Ahead where
  tail : Tail
  /-- The selector at its start. -/
  selector : Option Selector
deriving DecidableEq, Repr

namespace Ahead

/-- What the end of a text lets its last character do. -/
def nothing : Ahead := ⟨.apart, none⟩

/-- The columns that a character adds, and what it lets the one before it do. -/
def before (a : Ahead) (c : Char) : Int × Ahead :=
  if a.selector == some .picture && isDual c then
    (if a.tail.joinsSelected then 0 else 2, ⟨.picture, none⟩)
  else if c.toNat ≤ 0xa0 then (1, nothing)
  else if a.selector == some .text && narrowsToText c then (1, nothing)
  else if a.selector == some .wide && isQuotationMark c then (2, nothing)
  else
    let tail := if a.selector.isSome && !a.tail.ofLetters then .apart else a.tail
    match Selector.ofChar? c with
    | some s => (0, ⟨tail.select s, some s⟩)
    | none =>
      let (columns, rest) := (tail.before? c).getD (charWidth c, .ofChar c)
      (columns, ⟨rest, none⟩)

end Ahead

/-- The columns that a text fills. -/
def width (s : String) : Nat :=
  (s.toList.foldr
    (fun c (sum, ahead) =>
      let (columns, rest) := ahead.before c
      (sum + columns, rest))
    ((0 : Int), Ahead.nothing)).1.toNat

end Inflection.Text
