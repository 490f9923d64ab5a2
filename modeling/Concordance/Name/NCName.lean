import Concordance.Text.Letters

/-!
# Names without a colon

Prefixes and local names are words of letters, numerals, low lines, hyphens and full stops that
begin with a letter or a low line.
-/

namespace Concordance

/-- Whether a name may begin with `c`. -/
def isNameStart (c : Char) : Bool :=
  Text.isAlphabetic c || c == '_'

/-- Whether a name may hold `c` after its first character. -/
def isNamePart (c : Char) : Bool :=
  Text.isAlphanumeric c || c == '_' || c == '-' || c == '.'

/-- Whether `text` is a name without a colon. -/
def isNCName (text : String) : Bool :=
  match text.toList with
  | [] => false
  | first :: rest => isNameStart first && rest.all isNamePart

end Concordance
