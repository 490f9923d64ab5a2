/-!
# Extents

A reader of a text knows where it is by what is left of the text.  An extent is a stretch of a text
given in this way, by what is left at its beginning and behind it, and can be found in the text
again: its line, and the characters and bytes of the line in front of it.
-/

namespace Concordance.Text

def byteCount (cs : List Char) : Nat :=
  cs.foldr (fun c count => c.utf8Size + count) 0

/-- A stretch of a text, by what is left of the text from its beginning on and behind it. -/
structure Extent where
  here : List Char
  behind : List Char
  deriving Repr, DecidableEq

namespace Extent

/-- The place in front of what is left of a text. -/
def point (rest : List Char) : Extent :=
  ⟨rest, rest⟩

def bytes (extent : Extent) : Nat :=
  byteCount extent.here - byteCount extent.behind

/-- The characters of a text in front of the stretch. -/
def before (extent : Extent) (text : String) : List Char :=
  text.toList.take (text.toList.length - extent.here.length)

/-- The number of the line in which the stretch begins, counted from one. -/
def line (extent : Extent) (text : String) : Nat :=
  (extent.before text).count '\n' + 1

/-- The characters in front of the stretch on the line in which it begins. -/
def margin (extent : Extent) (text : String) : List Char :=
  ((extent.before text).reverse.takeWhile (· ≠ '\n')).reverse

/-- The line in which the stretch begins. -/
def lineText (extent : Extent) (text : String) : List Char :=
  extent.margin text ++ extent.here.takeWhile (· ≠ '\n')

end Extent

end Concordance.Text
