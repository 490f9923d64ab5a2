import Concordance.Text.Hexadecimal
import Concordance.Text.Printable

/-!
# Quoted text

Messages show a text that may hold anything between double quotes, with escapes for the quote, the
backslash and whatever cannot be seen.
-/

namespace Concordance.Text

/-- The form of one character inside a quoted text. -/
def quotedChar (c : Char) : String :=
  match c with
  | '\x00' => "\\0"
  | '\t' => "\\t"
  | '\r' => "\\r"
  | '\n' => "\\n"
  | '\\' => "\\\\"
  | '"' => "\\\""
  | c =>
    if isExtending c || !isPrintable c then
      "\\u\x7b" ++ hexadecimal c.toNat ++ "\x7d"
    else String.singleton c

/-- The text between double quotes, with escapes for what cannot be shown as it is. -/
def quoted (text : String) : String :=
  "\"" ++ String.join (text.toList.map quotedChar) ++ "\""

end Concordance.Text
