import Concordance.Name.Element
import Concordance.Proofs.Xml.Reader

/-!
# Documents

Documents as transformations see them: trees of elements with expanded names, attributes and text.
No two attributes of an element have the same name, so the first one found is the only one.
-/

namespace Concordance.Transform

/-- An element with its attributes and its content, or a stretch of text. -/
inductive Tree where
  | element (name : ExpandedName) (attributes : List (ExpandedName × String)) (content : List Tree)
  | text (content : String)

namespace Tree

def content : Tree → List Tree
  | .element _ _ content => content
  | .text _ => []

def isNamed (name : ExpandedName) : Tree → Bool
  | .element other _ _ => other == name
  | .text _ => false

/-- The child elements of the given name, in document order. -/
def childrenNamed (tree : Tree) (name : ExpandedName) : List Tree :=
  tree.content.filter (isNamed name)

/-- The value of an attribute, if it is there. -/
def attribute? (tree : Tree) (name : ExpandedName) : Option String :=
  match tree with
  | .element _ attributes _ => (attributes.find? (·.1 == name)).map Prod.snd
  | .text _ => none

/-- The text of a tree that is nothing else. -/
def text? : Tree → Option String
  | .element .. => none
  | .text content => some content

/-- The texts directly in an element, in document order. -/
def texts (tree : Tree) : List String :=
  tree.content.filterMap text?

mutual

/-- All the text of a tree. -/
def allText : Tree → String
  | .element _ _ content => allTexts content
  | .text content => content

/-- All the text of trees, one after another. -/
def allTexts : List Tree → String
  | [] => ""
  | tree :: rest => allText tree ++ allTexts rest

end

end Tree

/-- The words of a text: what stands between its white space. -/
def words (text : String) : List String :=
  ((text.toList.splitOnP Xml.isSpace).filter (!·.isEmpty)).map String.ofList

/-- The words of a text, with one space between each two. -/
def normalizeSpace (text : String) : String :=
  " ".intercalate (words text)

end Concordance.Transform
