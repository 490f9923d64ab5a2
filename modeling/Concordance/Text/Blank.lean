/-!
# Blank characters

White space is the Unicode property White_Space.  Trimming removes it at both ends, and a text is
blank when nothing else is in it.
-/

namespace Concordance.Text

/-- Whether `c` has the Unicode property White_Space. -/
def isSpace (c : Char) : Bool :=
  (0x9 ≤ c.toNat && c.toNat ≤ 0xD) || c.toNat == 0x20 || c.toNat == 0x85 || c.toNat == 0xA0 ||
    c.toNat == 0x1680 || (0x2000 ≤ c.toNat && c.toNat ≤ 0x200A) || c.toNat == 0x2028 ||
    c.toNat == 0x2029 || c.toNat == 0x202F || c.toNat == 0x205F || c.toNat == 0x3000

/-- The characters of `cs` without the white space at the end. -/
def trimEnd (cs : List Char) : List Char :=
  (cs.reverse.dropWhile isSpace).reverse

/-- The text without the white space at either end. -/
def trim (text : String) : String :=
  String.ofList (trimEnd (text.toList.dropWhile isSpace))

def isBlank (text : String) : Bool :=
  text.toList.all isSpace

end Concordance.Text
