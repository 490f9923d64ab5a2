import Concordance.Proofs.Xml.Tidy
import Concordance.Proofs.Xpath.Token

/-!
# The names of a document

A prefix of a document stands for the URI that the root binds it to, and the prefix of XML stands
for the URI of XML without any binding.  The names of a document are those of its elements and those
in the attributes that hold expressions, patterns or names.
-/

namespace Concordance

open Namespace (xmlUri)
open Xpath (Token tokens?)

/-! ## Names of expressions -/

/-- The prefix and the local name of a token that is a name with a prefix. -/
def Xpath.Token.pair? : Token → Option (String × String)
  | .name (some label) localName => some (label, localName)
  | _ => none

/-- The names with a prefix in an expression. -/
def Xpath.names? (expression : String) : Option (List (String × String)) :=
  (tokens? expression.toList).map (List.filterMap Token.pair?)

namespace Xml

/-! ## Bindings -/

/-- The prefix that an attribute binds, with the URI that it is bound to. -/
def binding? (a : String × String) : Option (String × String) :=
  match a.1.toList with
  | 'x' :: 'm' :: 'l' :: 'n' :: 's' :: ':' :: label => some (String.ofList label, a.2)
  | _ => none

/-- The prefixes that an element binds, each with its URI. -/
def Node.bindings : Node → List (String × String)
  | .element _ attributes _ => attributes.filterMap binding?
  | _ => []

/-- What a name with a prefix stands for under the given bindings. -/
def resolve? (bindings : List (String × String)) (name : String × String) : Option ExpandedName :=
  if name.1 = "xml" then some ⟨xmlUri, name.2⟩
  else (bindings.find? (·.1 == name.1)).map fun bound => ⟨bound.2, name.2⟩

theorem binding?_append (label uri : String) :
    binding? ("xmlns:" ++ label, uri) = some (label, uri) := by
  have htext : ("xmlns:" ++ label).toList =
      'x' :: 'm' :: 'l' :: 'n' :: 's' :: ':' :: label.toList := by
    simp
  simp only [binding?, htext, String.ofList_toList]

theorem bindings_tidy (node : Node) : node.tidy.bindings = node.bindings := by
  cases node <;> rfl

/-! ## Names in the order of the document -/

/-- Two lists one after the other, if both are there. -/
def joined {α : Type} (first second : Option (List α)) : Option (List α) :=
  first.bind fun xs => second.map (xs ++ ·)

/-- The prefix and the local name of a tag. -/
def tagName? (name : String) : Option (String × String) :=
  match tokens? name.toList with
  | some [.name (some label) localName] => some (label, localName)
  | _ => none

/-- The attributes that hold expressions, patterns or names. -/
def nameKeys : List String :=
  ["match", "select", "test", "name"]

/-- The names with a prefix in the attributes of a tag. -/
def attributeNames? : Attributes → Option (List (String × String))
  | [] => some []
  | (key, value) :: rest =>
    if key ∈ nameKeys then joined (Xpath.names? value) (attributeNames? rest)
    else attributeNames? rest

namespace Node

mutual

/-- The names of a tree: of every element, and with a prefix in its attributes. -/
def names? : Node → Option (List (String × String))
  | .element name attributes content =>
    joined ((tagName? name).map ([·])) (joined (attributeNames? attributes) (namesAll? content))
  | .comment _ => some []
  | .text _ => some []

/-- The names of trees one after another. -/
def namesAll? : List Node → Option (List (String × String))
  | [] => some []
  | item :: rest => joined (names? item) (namesAll? rest)

end

end Node

theorem joined_nil {α : Type} (second : Option (List α)) : joined (some []) second = second := by
  cases second <;> rfl

theorem joined_assoc {α : Type} (first second third : Option (List α)) :
    joined (joined first second) third = joined first (joined second third) := by
  cases first <;> cases second <;> cases third <;> simp [joined]

theorem namesAll?_append (first second : List Node) :
    Node.namesAll? (first ++ second) = joined (Node.namesAll? first) (Node.namesAll? second) := by
  induction first with
  | nil => rw [List.nil_append, Node.namesAll?, joined_nil]
  | cons item rest ih => rw [List.cons_append, Node.namesAll?, Node.namesAll?, ih, joined_assoc]

mutual

theorem names?_tidy (node : Node) : node.tidy.names? = node.names? := by
  cases node with
  | element name attributes content =>
    rw [Node.tidy, Node.names?, Node.names?, namesAll?_tidyAll content]
  | comment body => rfl
  | text content => rfl

/-- White space of the layout holds no names. -/
theorem namesAll?_tidyAll (items : List Node) :
    Node.namesAll? (Node.tidyAll items) = Node.namesAll? items := by
  cases items with
  | nil => rfl
  | cons item rest =>
    have ih := namesAll?_tidyAll rest
    cases item with
    | element name attributes content =>
      have hitem := names?_tidy (.element name attributes content)
      rw [Node.tidyAll, Node.namesAll?, hitem, ih, Node.namesAll?]
      simp
    | comment body =>
      rw [Node.tidyAll, Node.namesAll?, ih, Node.namesAll?]
      · rfl
      · simp
    | text content =>
      rw [Node.tidyAll, Node.namesAll?, Node.names?, joined_nil]
      split
      · exact ih
      · rw [Node.namesAll?, Node.names?, joined_nil, ih]

end

end Xml

end Concordance
