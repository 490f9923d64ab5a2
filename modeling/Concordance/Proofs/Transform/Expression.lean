import Concordance.Proofs.Transform.Tree
import Concordance.Proofs.Xml.Names

/-!
# Expressions

The path expressions, tests and values that select parts of a document, with the part of the
expression language that they are written in.  A path gives nodes in document order; a test holds or
does not; the value of a path is the text of the first node that it gives.
-/

namespace Concordance.Transform

/-! ## Meaning -/

/-- A node that expressions are about: a tree of the document, or an attribute by its value. -/
inductive Item where
  | tree (tree : Tree)
  | attribute (value : String)

namespace Item

/-- The text of a node. -/
def stringValue : Item → String
  | .tree t => t.allText
  | .attribute value => value

/-- The child elements of the given name. -/
def childrenNamed (name : ExpandedName) : Item → List Item
  | .tree t => (t.childrenNamed name).map .tree
  | .attribute _ => []

/-- The attribute of the given name, if it is there. -/
def attributesNamed (name : ExpandedName) : Item → List Item
  | .tree t => (t.attribute? name).toList.map .attribute
  | .attribute _ => []

/-- The texts directly in an element. -/
def textNodes : Item → List Item
  | .tree t => t.texts.map fun text => .tree (.text text)
  | .attribute _ => []

end Item

/-- A path from a node to others. -/
inductive LocationPath where
  | here
  | children (start : LocationPath) (name : ExpandedName)
  | attribute (start : LocationPath) (name : ExpandedName)
  | texts (start : LocationPath)
  | having (start test : LocationPath)
  | filled (start : LocationPath)
  | first (start : LocationPath)

/-- The nodes that a path leads to: over `having` those from which the test leads on, over `filled`
those whose text is not blank, over `first` the first one. -/
def LocationPath.select : LocationPath → Item → List Item
  | .here, item => [item]
  | .children start name, item => (start.select item).flatMap (Item.childrenNamed name)
  | .attribute start name, item => (start.select item).flatMap (Item.attributesNamed name)
  | .texts start, item => (start.select item).flatMap Item.textNodes
  | .having start test, item => (start.select item).filter fun found => !(test.select found).isEmpty
  | .filled start, item =>
    (start.select item).filter fun found => normalizeSpace found.stringValue != ""
  | .first start, item => (start.select item).take 1

/-- A condition on a node. -/
inductive Test where
  | holds (path : LocationPath)
  | lacks (path : LocationPath)
  | equals (path : LocationPath) (parameter : String)
  | after (count : Nat)
  | both (first second : Test)

/-- Whether a test holds of a node at a position, under given values of the parameters. -/
def Test.eval (values : String → String) : Test → Nat → Item → Bool
  | .holds path, _, item => !(path.select item).isEmpty
  | .lacks path, _, item => (path.select item).isEmpty
  | .equals path parameter, _, item =>
    (path.select item).any (·.stringValue == values parameter)
  | .after count, position, _ => count < position
  | .both first second, position, item =>
    first.eval values position item && second.eval values position item

/-- A text that is taken from a node. -/
inductive Value where
  | string (path : LocationPath)
  | normalized (path : LocationPath)

/-- The text of the first node of a path, as it is or with its white space normalized. -/
def Value.eval : Value → Item → String
  | .string path, item => ((path.select item).head?.map Item.stringValue).getD ""
  | .normalized path, item =>
    normalizeSpace (((path.select item).head?.map Item.stringValue).getD "")

/-! ## Reading -/

/-- A token whose prefix is resolved. -/
inductive Lexeme where
  | name (name : ExpandedName)
  | word (word : String)
  | number (digits : String)
  | mark (c : Char)

/-- The token with its prefix resolved under the given bindings. -/
def lexeme? (bindings : List (String × String)) : Xpath.Token → Option Lexeme
  | .name (some label) localName => (Xml.resolve? bindings (label, localName)).map .name
  | .name none word => some (.word word)
  | .number digits => some (.number digits)
  | .mark c => some (.mark c)

/-- The resolved tokens of an expression. -/
def lexemes? (bindings : List (String × String)) (expression : String) : Option (List Lexeme) :=
  (Xpath.tokens? expression.toList).bind fun tokens => tokens.mapM (lexeme? bindings)

mutual

/-- The path at the beginning, with what follows it. -/
def path? : Nat → List Lexeme → Option (LocationPath × List Lexeme)
  | 0, _ => none
  | fuel + 1, .mark '.' :: rest => steps? fuel .here rest
  | fuel + 1, .mark '@' :: .name name :: rest => steps? fuel (.attribute .here name) rest
  | fuel + 1, .name name :: rest => steps? fuel (.children .here name) rest
  | fuel + 1, .word "text" :: .mark '(' :: .mark ')' :: rest => steps? fuel (.texts .here) rest
  | fuel + 1, .mark '(' :: rest =>
    match path? fuel rest with
    | some (path, .mark ')' :: .mark '[' :: .number "1" :: .mark ']' :: rest) =>
      steps? fuel (.first path) rest
    | _ => none
  | _ + 1, _ => none

/-- The path that goes on from another one, with what follows it. -/
def steps? : Nat → LocationPath → List Lexeme → Option (LocationPath × List Lexeme)
  | 0, _, _ => none
  | fuel + 1, path, .mark '/' :: .mark '@' :: .name name :: rest =>
    steps? fuel (.attribute path name) rest
  | fuel + 1, path, .mark '/' :: .name name :: rest => steps? fuel (.children path name) rest
  | fuel + 1, path, .mark '[' :: .word "normalize-space" :: .mark '(' :: .mark ')' :: .mark ']' ::
      rest => steps? fuel (.filled path) rest
  | fuel + 1, path, .mark '[' :: rest =>
    match path? fuel rest with
    | some (test, .mark ']' :: rest) => steps? fuel (.having path test) rest
    | _ => none
  | _ + 1, path, rest => some (path, rest)

end

/-- The path at the beginning of an expression, with what follows it.  Each step of reading takes a
token away or is the last. -/
def leadingPath? (lexemes : List Lexeme) : Option (LocationPath × List Lexeme) :=
  path? (2 * lexemes.length + 2) lexemes

/-- The number that digits stand for. -/
def digitsValue (digits : String) : Nat :=
  digits.toList.foldl (fun value c => 10 * value + (c.toNat - '0'.toNat)) 0

/-- The test at the beginning, with what follows it.  Only the given parameters are known. -/
def leadingTest? (parameters : List String) : List Lexeme → Option (Test × List Lexeme)
  | .word "not" :: .mark '(' :: rest =>
    match leadingPath? rest with
    | some (path, .mark ')' :: rest) => some (.lacks path, rest)
    | _ => none
  | .word "position" :: .mark '(' :: .mark ')' :: .mark '>' :: .number digits :: rest =>
    some (.after (digitsValue digits), rest)
  | lexemes =>
    match leadingPath? lexemes with
    | some (path, .mark '=' :: .mark '$' :: .word parameter :: rest) =>
      if parameter ∈ parameters then some (.equals path parameter, rest) else none
    | some (path, rest) => some (.holds path, rest)
    | none => none

/-- The test that an expression is, at most so many times one test and another. -/
def testOf? (parameters : List String) : Nat → List Lexeme → Option Test
  | 0, _ => none
  | fuel + 1, lexemes =>
    match leadingTest? parameters lexemes with
    | some (test, []) => some test
    | some (test, .word "and" :: rest) => (testOf? parameters fuel rest).map (.both test)
    | _ => none

/-- The path that an expression is. -/
def pathOf? (lexemes : List Lexeme) : Option LocationPath :=
  match leadingPath? lexemes with
  | some (path, []) => some path
  | _ => none

/-- The value that an expression is. -/
def valueOf? : List Lexeme → Option Value
  | .word "normalize-space" :: .mark '(' :: rest =>
    match leadingPath? rest with
    | some (path, [.mark ')']) => some (.normalized path)
    | _ => none
  | lexemes => (pathOf? lexemes).map .string

/-- The element that a pattern stands for, as the root of a document. -/
def patternOf? : List Lexeme → Option ExpandedName
  | [.mark '/', .name name] => some name
  | _ => none

end Concordance.Transform
