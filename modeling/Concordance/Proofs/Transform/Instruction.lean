import Concordance.Proofs.Transform.Expression

/-!
# Transformations

A transformation has one template, for the root element of a document, whose body is carried out
there.  Carrying out instructions adds attributes and trees, in this order, to the element around
them: a later attribute takes the place of an earlier one of its name, texts that meet become one,
and an attribute that comes after a tree is an error.
-/

namespace Concordance.Transform

open Namespace (xslUri)
open Xml (Node Attributes joined)

/-! ## Meaning -/

/-- An instruction of a template. -/
inductive Instruction where
  | literal (name : ExpandedName) (body : List Instruction)
  | forEach (select : LocationPath) (body : List Instruction)
  | when (test : Test) (body : List Instruction)
  | attribute (name : ExpandedName) (body : List Instruction)
  | valueOf (value : Value)
  | text (content : String)

/-- What an instruction adds to the element around it. -/
inductive Addition where
  | attribute (name : ExpandedName) (value : String)
  | tree (tree : Tree)

/-- Sets an attribute, which takes the place of an earlier one of its name. -/
def setAttribute (attributes : List (ExpandedName × String)) (a : ExpandedName × String) :
    List (ExpandedName × String) :=
  attributes.filter (·.1 != a.1) ++ [a]

/-- Adds a tree behind others.  An empty text adds nothing, and a text behind a text carries it
on. -/
def addTree (content : List Tree) : Tree → List Tree
  | .text added =>
    if added = "" then content
    else
      match content.getLast? with
      | some (.text last) => content.dropLast ++ [.text (last ++ added)]
      | _ => content ++ [.text added]
  | tree => content ++ [tree]

/-- The element that additions make of a name. -/
def assemble? (name : ExpandedName) (attributes : List (ExpandedName × String))
    (content : List Tree) : List Addition → Option Tree
  | [] => some (.element name attributes content)
  | .attribute key value :: rest =>
    if content.isEmpty then assemble? name (setAttribute attributes (key, value)) content rest
    else none
  | .tree tree :: rest => assemble? name attributes (addTree content tree) rest

/-- The trees that additions make where there is no element around them. -/
def trees? (content : List Tree) : List Addition → Option (List Tree)
  | [] => some content
  | .attribute _ _ :: _ => none
  | .tree tree :: rest => trees? (addTree content tree) rest

/-- The text that additions make, if they are texts. -/
def text? : List Addition → Option String
  | [] => some ""
  | .tree (.text content) :: rest => (text? rest).map (content ++ ·)
  | _ => none

/-- Carries out a body for each node, with the position of the node. -/
def eachOf (body : Nat → Item → Option (List Addition)) (position : Nat) :
    List Item → Option (List Addition)
  | [] => some []
  | item :: rest => joined (body position item) (eachOf body (position + 1) rest)

mutual

/-- Carries out an instruction for a node at a position. -/
def run (values : String → String) : Instruction → Nat → Item → Option (List Addition)
  | .literal name body, position, item =>
    ((runAll values body position item).bind (assemble? name [] [])).map ([.tree ·])
  | .forEach select body, _, item => eachOf (runAll values body) 1 (select.select item)
  | .when test body, position, item =>
    if test.eval values position item then runAll values body position item else some []
  | .attribute name body, position, item =>
    ((runAll values body position item).bind text?).map ([.attribute name ·])
  | .valueOf value, _, item => some [.tree (.text (value.eval item))]
  | .text content, _, _ => some [.tree (.text content)]

/-- Carries out instructions one after another. -/
def runAll (values : String → String) :
    List Instruction → Nat → Item → Option (List Addition)
  | [], _, _ => some []
  | instruction :: rest, position, item =>
    joined (run values instruction position item) (runAll values rest position item)

end

/-- A transformation: its parameters, the root elements that its template is for, and the body of
the template. -/
structure Transformation where
  parameters : List String
  root : ExpandedName
  body : List Instruction

/-- What a transformation makes of a document, if the template is for its root, under given values
of the parameters. -/
def Transformation.outcome? (transformation : Transformation) (values : String → String)
    (document : Tree) : Option (List Tree) :=
  if document.isNamed transformation.root then
    (runAll values transformation.body 1 (.tree document)).bind (trees? [])
  else none

/-! ## Reading -/

/-- The name that a written name stands for under the given bindings. -/
def expandedName? (bindings : List (String × String)) (written : String) : Option ExpandedName :=
  (Xml.tagName? written).bind (Xml.resolve? bindings)

/-- The value of an attribute without a prefix. -/
def valueOfKey? (attributes : Attributes) (key : String) : Option String :=
  (attributes.find? (·.1 == key)).map Prod.snd

/-- The text that nodes are, if they are texts. -/
def textOf? : List Node → Option String
  | [] => some ""
  | .text content :: rest => (textOf? rest).map (content ++ ·)
  | _ => none

/-- The instruction of an element of the stylesheet language, given its content as it stands and
the instructions in it. -/
def xslInstruction? (bindings : List (String × String)) (parameters : List String)
    (localName : String) (attributes : Attributes) (content : List Node)
    (body : Option (List Instruction)) : Option Instruction :=
  match localName with
  | "for-each" => do
    let expression ← valueOfKey? attributes "select"
    let path ← (lexemes? bindings expression).bind pathOf?
    return .forEach path (← body)
  | "if" => do
    let expression ← valueOfKey? attributes "test"
    let lexemes ← lexemes? bindings expression
    let test ← testOf? parameters lexemes.length lexemes
    return .when test (← body)
  | "attribute" => do
    let written ← valueOfKey? attributes "name"
    let name ← expandedName? bindings written
    return .attribute name (← body)
  | "value-of" => do
    let expression ← valueOfKey? attributes "select"
    let value ← (lexemes? bindings expression).bind valueOf?
    return .valueOf value
  | "text" => (textOf? content).map .text
  | _ => none

mutual

/-- The instructions of a node of a template: none for a comment and for white space, and else
one. -/
def instruction? (bindings : List (String × String)) (parameters : List String) :
    Node → Option (List Instruction)
  | .comment _ => some []
  | .text content => if Xml.isBlank content then some [] else some [.text content]
  | .element tag attributes content =>
    match expandedName? bindings tag with
    | none => none
    | some name =>
      if name.uri = xslUri then
        (xslInstruction? bindings parameters name.localName attributes content
          (instructions? bindings parameters content)).map ([·])
      else if attributes = [] then
        (instructions? bindings parameters content).map ([.literal name ·])
      else none

/-- The instructions of nodes one after another. -/
def instructions? (bindings : List (String × String)) (parameters : List String) :
    List Node → Option (List Instruction)
  | [] => some []
  | node :: rest => joined (instruction? bindings parameters node)
      (instructions? bindings parameters rest)

end

/-- A part of a stylesheet: a parameter, a word about the output, or a template. -/
inductive Part where
  | parameter (name : String)
  | output
  | template (root : ExpandedName) (content : List Node)

/-- The parts that a node of a stylesheet holds: none for a comment and for white space, and else
one. -/
def part? (bindings : List (String × String)) : Node → Option (List Part)
  | .comment _ => some []
  | .text content => if Xml.isBlank content then some [] else none
  | .element tag attributes content =>
    match expandedName? bindings tag with
    | none => none
    | some name =>
      if name = ⟨xslUri, "param"⟩ then
        (valueOfKey? attributes "name").map ([.parameter ·])
      else if name = ⟨xslUri, "output"⟩ then some [.output]
      else if name = ⟨xslUri, "template"⟩ then do
        let expression ← valueOfKey? attributes "match"
        let root ← (lexemes? bindings expression).bind patternOf?
        return [.template root content]
      else none

/-- The parts of a stylesheet. -/
def parts? (bindings : List (String × String)) : List Node → Option (List Part)
  | [] => some []
  | node :: rest => joined (part? bindings node) (parts? bindings rest)

/-- The parameter that a part is. -/
def Part.parameter? : Part → Option String
  | .parameter name => some name
  | _ => none

/-- The template that a part is. -/
def Part.template? : Part → Option (ExpandedName × List Node)
  | .template root content => some (root, content)
  | _ => none

/-- The transformation that the root of a stylesheet stands for, if it has a single template. -/
def transformation? : Node → Option Transformation
  | .element tag attributes content => do
    let bindings := (Node.element tag attributes content).bindings
    if (← expandedName? bindings tag) = ⟨xslUri, "stylesheet"⟩ then
      let parts ← parts? bindings content
      let parameters := parts.filterMap Part.parameter?
      match parts.filterMap Part.template? with
      | [(root, content)] =>
        return ⟨parameters, root, ← instructions? bindings parameters content⟩
      | _ => none
    else none
  | _ => none

/-- The transformation that the bytes of a stylesheet stand for. -/
def ofBytes? (bytes : ByteArray) : Option Transformation :=
  (Xml.ofBytes? bytes).bind transformation?

end Concordance.Transform
