import Concordance.Definition.Reading

/-!
# Where a definition is at fault

A message on the shape of a definition is shown with the place in the text that it is about: in JSON
by the numbers of the line and of the bytes before it on the line, in TOML by an excerpt with the
line and a mark under the stretch that is at fault.
-/

namespace Concordance

open Text (Extent)

/-- The notations of definitions. -/
inductive Notation where
  | toml
  | json
  deriving Repr, DecidableEq

namespace ShapeError

/-- So many copies of a character. -/
def run (count : Nat) (c : Char) : String :=
  String.ofList (List.replicate count c)

/-- The line and the column at which a stretch of a text begins. -/
def placed (text : String) (extent : Extent) : String :=
  " at line " ++ toString (extent.line text) ++ " column " ++
    toString (Text.byteCount (extent.margin text))

/-- The line of a text in which a stretch begins, with the stretch marked as far as the line goes;
an empty stretch still has a mark. -/
def excerpt (text : String) (extent : Extent) : String :=
  let line := toString (extent.line text)
  let column := (extent.margin text).length
  let content := extent.lineText text
  let marked := max 1 (min extent.bytes (Text.byteCount content - column))
  let gutter := run (line.length + 1) ' ' ++ "|"
  "TOML parse error at line " ++ line ++ ", column " ++ toString (column + 1) ++ "\n" ++
    gutter ++ "\n" ++ line ++ " | " ++ String.ofList content ++ "\n" ++
    gutter ++ run (column + 1) ' ' ++ run marked '^' ++ "\n"

/-- The wording of an error of shape of a text, with the place where it shows. -/
def shown (format : Notation) (text : String) : ShapeError → String
  | .syntactic => "syntax error"
  | .data message extent =>
    match format with
    | .toml => excerpt text extent ++ message ++ "\n"
    | .json => message ++ placed text extent

end ShapeError

end Concordance
