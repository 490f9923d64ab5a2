import Concordance.Text.Emoji
import Concordance.Text.Width

/-!
# Display columns

How many columns of a terminal a text takes.  Some characters take more or less room in front of
certain others than by themselves: a line break of two characters is one column, a picture that is
made up of several characters is two, and letters that merge into one glyph share its column.  A
text is therefore measured from its end.
-/

namespace Concordance.Text

/-- The beginning of what follows a character, as far as the room of the character depends on it.
For letters that merge with one before them, `joined` says whether a joiner stands in front. -/
inductive Beginning where
  | other
  | lineFeed
  | skinTone
  | flagLetter (several : Bool)
  | picture
  | joinedPicture
  | joinedKeycap
  | alef
  | lamed (joined : Bool)
  | ya (joined : Bool)
  | joinedYaWithVowel
  | orkhonI (joined : Bool)
  | tifinagh (joined : Bool)
  | boundTifinagh
  | lateTone
  | subscriptLetter
  deriving Repr, DecidableEq

namespace Beginning

/-- Whether a letter begins that may merge with one before it. -/
def isLetter : Beginning → Bool
  | .other | .lineFeed | .skinTone | .flagLetter _ | .picture | .joinedPicture | .joinedKeycap =>
    false
  | _ => true

/-- Whether a picture begins with the joiner that ties it to one before it. -/
def isJoined : Beginning → Bool
  | .joinedPicture | .joinedKeycap => true
  | _ => false

/-- The beginning with a joiner in front of it. -/
def join : Beginning → Beginning
  | .lamed _ => .lamed true
  | .ya _ => .ya true
  | .orkhonI _ => .orkhonI true
  | .tifinagh _ => .tifinagh true
  | letter => letter

/-- Whether a Khmer letter can stand below another. -/
def isSubscriptLetter (c : Char) : Bool :=
  inRanges [(0x1780, 0x1782), (0x1784, 0x1787), (0x1789, 0x178C), (0x178E, 0x1793),
    (0x1795, 0x1798), (0x179B, 0x179D), (0x17A0, 0x17A0), (0x17A2, 0x17A2), (0x17A7, 0x17A7),
    (0x17AB, 0x17AC), (0x17AF, 0x17AF)] c

def isTifinagh (c : Char) : Bool :=
  inRanges [(0x2D31, 0x2D65), (0x2D6F, 0x2D6F)] c

/-- Whether a character is a form of the Arabic letter alef. -/
def isAlef (c : Char) : Bool :=
  inRanges [(0x622, 0x623), (0x625, 0x625), (0x627, 0x627), (0x671, 0x673), (0x675, 0x675),
    (0x773, 0x774), (0x870, 0x882)] c

/-- Whether a character is a form of the Arabic letter lam. -/
def isLam (c : Char) : Bool :=
  inRanges [(0x644, 0x644), (0x6B5, 0x6B8), (0x76A, 0x76A), (0x8A6, 0x8A6), (0x8C7, 0x8C7)] c

/-- What a character begins. -/
def ofChar (c : Char) : Beginning :=
  if c.toNat ≤ 0xA0 then (if c = '\n' then .lineFeed else .other)
  else if isSkinTone c then .skinTone
  else if isFlagLetter c then .flagLetter false
  else if isPicture c then .picture
  else if isAlef c then .alef
  else if c = '\u05DC' then .lamed false
  else if c = '\u1A10' then .ya false
  else if c.toNat = 0x10C03 then .orkhonI false
  else if isTifinagh c then .tifinagh false
  else if c = '\uA4FC' ∨ c = '\uA4FD' then .lateTone
  else if isSubscriptLetter c then .subscriptLetter
  else .other

end Beginning

/-- The forms that a variation selector asks for. -/
inductive Form where
  | plain
  | picture
  deriving Repr, DecidableEq

/-- What follows a character: a variation selector, if one stands right behind the character, and
what begins behind that. -/
structure Following where
  form : Option Form
  beginning : Beginning
  deriving Repr, DecidableEq

namespace Following

def nothing : Following :=
  ⟨none, .other⟩

/-- The joiner of no width. -/
def joiner : Char := '\u200D'

/-- Whether marks like `c` may stand inside merged letters: joiners, variation selectors and other
ignored marks. -/
def isIgnoredMark (c : Char) : Bool :=
  inRanges [(0x34F, 0x34F), (0x17B4, 0x17B5), (0x180B, 0x180D), (0x180F, 0x180F),
    (0x200D, 0x200D), (0xFE00, 0xFE0F), (0xE0100, 0xE01EF)] c

/-- The columns that a character adds in front of what begins behind it, and what begins with it,
where the two interact. -/
def interact? (c : Char) : Beginning → Option (Int × Beginning)
  | .alef =>
    if Beginning.isLam c then some (0, .other)
    else if isColumnless c && c ≠ joiner && c ≠ '\u200C' then some (0, .alef)
    else none
  | .lamed true => if c = '\u05D0' then some (0, .other) else none
  | .ya true => if c = '\u1A17' then some (0, .joinedYaWithVowel) else none
  | .joinedYaWithVowel => if c = '\u1A15' then some (0, .other) else none
  | .orkhonI true => if c.toNat = 0x10C32 then some (0, .other) else none
  | .tifinagh joined =>
    if c = '\u2D7F' then some (1, .boundTifinagh)
    else if joined && Beginning.isTifinagh c then some (0, .other)
    else none
  | .boundTifinagh => if Beginning.isTifinagh c then some (-1, .other) else none
  | .lateTone => if 0xA4F8 ≤ c.toNat ∧ c.toNat ≤ 0xA4FB then some (0, .other) else none
  | .subscriptLetter => if c = '\u17D2' then some (-1, .other) else none
  | .skinTone =>
    if takesSkinTone c then some (0, .picture)
    else if c = joiner then some (0, .joinedPicture)
    else none
  | .flagLetter several =>
    if isFlagLetter c then some (1, .flagLetter true)
    else if several && c = joiner then some (0, .joinedPicture)
    else none
  | .picture => if c = joiner then some (0, .joinedPicture) else none
  | .joinedPicture =>
    if c = '\u20E3' then some (0, .joinedKeycap)
    else if isSkinTone c then some (0, .skinTone)
    else if isPicture c then some (0, .picture)
    else none
  | _ => none

/-- The columns that a character beyond Latin adds in front of what follows, which is no variation
selector that it heeds, and what then follows the character before it. -/
def addPlain (c : Char) (beginning : Beginning) : Int × Following :=
  if c = '\uFE0F' then
    (0, ⟨some .picture, if beginning.isLetter || beginning.isJoined then beginning else .other⟩)
  else if c = '\uFE0E' then
    (0, ⟨some .plain, if beginning.isLetter then beginning else .other⟩)
  else if beginning.isLetter && beginning ≠ .alef && isIgnoredMark c then
    (0, ⟨none, if c = joiner then beginning.join else beginning⟩)
  else
    match interact? c beginning with
    | some (columns, beginning) => (columns, ⟨none, beginning⟩)
    | none => (charColumns c, ⟨none, .ofChar c⟩)

/-- The columns that a character adds in front of what follows, and what then follows the character
before it. -/
def add (c : Char) (following : Following) : Int × Following :=
  let beginning := following.beginning
  let left :=
    if following.form = some .picture && !beginning.isLetter then .other else beginning
  if following.form = some .picture ∧ hasPictureForm c then
    (if beginning.isJoined then 0 else 2, ⟨none, .picture⟩)
  else if c.toNat ≤ 0xA0 then
    (if c = '\r' ∧ following = ⟨none, .lineFeed⟩ then 0 else 1, ⟨none, .ofChar c⟩)
  else if following.form = some .plain ∧ hasPlainForm c then
    (1, nothing)
  else addPlain c left

end Following

/-- The columns that a text takes. -/
def columns (text : String) : Nat :=
  (text.toList.foldr (fun c (sum, following) =>
    let (columns, following) := following.add c
    (sum + columns, following)) ((0 : Int), Following.nothing)).1.toNat

end Concordance.Text
