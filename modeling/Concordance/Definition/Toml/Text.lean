import Concordance.Definition.Shape
import Concordance.Definition.Toml.Scalar

/-!
# Definitions in TOML

Reading a whole TOML 1.1 document into the statements that it consists of.  Line breaks and comments
may stand between the items of arrays and of inline tables, and both may end in a comma.  Arrays and
inline tables nest to a depth of eighty, and a key has eighty parts at most.
-/

namespace Concordance.Toml

open Text (Extent)

/-- The depth to which values may nest, and the number of parts that a key may have. -/
def depthLimit : Nat := 80

/-- The characters behind the white space on the line. -/
def skipSpace (cs : List Char) : List Char :=
  cs.dropWhile isSpace

/-- The characters behind a comment at the beginning, which runs to the end of the line. -/
def skipComment : List Char → List Char
  | '#' :: rest => rest.dropWhile isLineChar
  | cs => cs

/-- The characters behind white space, line breaks and comments. -/
def skipBlank (cs : List Char) : List Char :=
  match cs with
  | ' ' :: rest | '\t' :: rest | '\n' :: rest | '\r' :: '\n' :: rest => skipBlank rest
  | '#' :: rest => skipBlank (rest.dropWhile isLineChar)
  | cs => cs
termination_by cs.length
decreasing_by
  all_goals simp only [List.length_cons]
  all_goals try omega
  all_goals exact Nat.lt_succ_of_le (length_dropWhile_le isLineChar _)

/-- The characters behind the end of the line, where nothing but a comment may stand before it. -/
def endOfLine? (cs : List Char) : Option (List Char) :=
  match skipComment (skipSpace cs) with
  | [] => some []
  | rest => lineBreak? rest

/-- Whether a character may stand in a key without quotes. -/
def isBareChar (c : Char) : Bool :=
  c.isAlphanum || c == '_' || c == '-'

/-- One part of a key, and what is behind it. -/
def keyPart? (cs : List Char) : Option (String × List Char) :=
  match cs with
  | '"' :: rest => (basicBody? rest).map fun body => (String.ofList body.1, body.2)
  | '\'' :: rest => (literalBody? rest).map fun body => (String.ofList body.1, body.2)
  | cs =>
    match cs.takeWhile isBareChar with
    | [] => none
    | part => some (String.ofList part, cs.dropWhile isBareChar)

/-- A key of so many parts at most, separated by dots, and what is behind it and the white space
there. -/
def key? : Nat → List Char → Option (List Key × List Char)
  | 0, _ => none
  | parts + 1, cs => do
    let (part, rest) ← keyPart? cs
    let extent : Extent := ⟨cs, rest⟩
    match skipSpace rest with
    | '.' :: rest => do
      let (path, rest) ← key? parts (skipSpace rest)
      some ((part, extent) :: path, rest)
    | rest => some ([(part, extent)], rest)

/-- A key with the equals sign that follows it, and what is behind both. -/
def keyBefore? (cs : List Char) : Option (List Key × List Char) := do
  match ← key? depthLimit cs with
  | (path, '=' :: rest) => some (path, skipSpace rest)
  | _ => none

mutual

/-- The value at the beginning, at the given depth, and what is behind it. -/
def value? (fuel depth : Nat) (cs : List Char) : Option (Reading × List Char) :=
  match fuel with
  | 0 => none
  | fuel + 1 =>
    match cs with
    | '[' :: rest => do
      guard (depth < depthLimit)
      let (items, rest) ← items? fuel (depth + 1) (skipBlank rest)
      let extent : Extent := ⟨cs, rest⟩
      some (.sequence extent items (.closed extent), rest)
    | '\x7b' :: rest => do
      guard (depth < depthLimit)
      let (entries, rest) ← entries? fuel (depth + 1) [] (skipBlank rest)
      some (tableReading ⟨cs, rest⟩ (Node.entryReadings entries), rest)
    | '"' :: _ | '\'' :: _ => do
      let (body, rest) ← string? cs
      some (.string (String.ofList body) ⟨cs, rest⟩, rest)
    | _ => do
      let (written, rest) := word cs
      let reading ← classify? ⟨cs, rest⟩ written
      some (reading, rest)

/-- The items of an array from the next one on, and what is behind its bracket. -/
def items? (fuel depth : Nat) (cs : List Char) : Option (List Reading × List Char) :=
  match fuel with
  | 0 => none
  | fuel + 1 =>
    match cs with
    | ']' :: rest => some ([], rest)
    | cs => do
      let (item, rest) ← value? fuel depth cs
      match skipBlank rest with
      | ']' :: rest => some ([item], rest)
      | ',' :: rest => do
        let (items, rest) ← items? fuel depth (skipBlank rest)
        some (item :: items, rest)
      | _ => none

/-- The entries of an inline table from the next one on, added to those before, and what is behind
its bracket. -/
def entries? (fuel depth : Nat) (entries : Entries) (cs : List Char) :
    Option (Entries × List Char) :=
  match fuel with
  | 0 => none
  | fuel + 1 =>
    match cs with
    | '\x7d' :: rest => some (entries, rest)
    | cs => do
      let (path, rest) ← keyBefore? cs
      let (value, rest) ← value? fuel depth rest
      let entries ← entries.assign value true path
      match skipBlank rest with
      | '\x7d' :: rest => some (entries, rest)
      | ',' :: rest => entries? fuel depth entries (skipBlank rest)
      | _ => none

end

/-- The statement at the beginning of a line, and what is behind it. -/
def statement? (cs : List Char) : Option (Statement × List Char) :=
  match cs with
  | '[' :: '[' :: rest => do
    match ← key? depthLimit (skipSpace rest) with
    | (path, ']' :: ']' :: rest) => some (.element ⟨cs, rest⟩ path, rest)
    | _ => none
  | '[' :: rest => do
    match ← key? depthLimit (skipSpace rest) with
    | (path, ']' :: rest) => some (.header ⟨cs, rest⟩ path, rest)
    | _ => none
  | cs => do
    let (path, rest) ← keyBefore? cs
    let (value, rest) ← value? (2 * rest.length + 1) 0 rest
    some (.assignment path value, rest)

/-- The statements of so many lines at most. -/
def statements? : Nat → List Char → Option (List Statement)
  | 0, _ => none
  | lines + 1, cs =>
    match skipBlank cs with
    | [] => some []
    | cs => do
      let (statement, rest) ← statement? cs
      let rest ← endOfLine? rest
      let others ← statements? lines rest
      some (statement :: others)

/-- The characters of a text without the mark of the byte order in front. -/
def withoutMark (text : String) : List Char :=
  match text.toList with
  | '\ufeff' :: rest => rest
  | cs => cs

/-- The reading of a text, if it is a TOML document.  What the document lacks shows at its
beginning. -/
def ofText? (text : String) : Option Reading :=
  let cs := withoutMark text
  (statements? (cs.length + 1) cs).bind (document? (.point text.toList))

/-- Whether the values of a document, the table that it is itself apart, all stand for something. -/
def isSoundDocument : Reading → Bool
  | .table _ entries _ => areSoundEntries entries
  | other => isSound other

end Concordance.Toml

namespace Concordance.Definition

/-- The definition that a TOML text holds.  A document of another shape is at fault in its notation
already if one of its values stands for nothing. -/
def ofToml (text : String) : Except ShapeError Definition :=
  match Toml.ofText? text with
  | none => .error .syntactic
  | some reading =>
    (ofReading true reading).mapError fun error =>
      if Toml.isSoundDocument reading then error else .syntactic

end Concordance.Definition
