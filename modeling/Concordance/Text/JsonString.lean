import Concordance.Text.Hexadecimal

/-!
# Strings of JSON

A text between double quotes, with escapes for the quote, the backslash and control characters.
-/

namespace Concordance.Text

/-- The form of one character inside a string of JSON. -/
def jsonChar (c : Char) : String :=
  match c with
  | '"' => "\\\""
  | '\\' => "\\\\"
  | '\x08' => "\\b"
  | '\x0c' => "\\f"
  | '\n' => "\\n"
  | '\r' => "\\r"
  | '\t' => "\\t"
  | c =>
    if c.toNat < 0x10 then "\\u000" ++ hexadecimal c.toNat
    else if c.toNat < 0x20 then "\\u00" ++ hexadecimal c.toNat
    else String.singleton c

def jsonString (text : String) : String :=
  "\"" ++ String.join (text.toList.map jsonChar) ++ "\""

/-- An object of JSON on one line, given its keys with the texts of their values. -/
def jsonObject (entries : List (String × String)) : String :=
  "\x7b" ++ ",".intercalate (entries.map fun entry => jsonString entry.1 ++ ":" ++ entry.2) ++
    "\x7d"

/-- An array of JSON on one line, given the texts of its items. -/
def jsonArray (items : List String) : String :=
  "[" ++ ",".intercalate items ++ "]"

end Concordance.Text
